import HermesEnterprise.Model.Torn
import HermesEnterprise.Model.Written
import HermesEnterprise.Providers.JsonText

/-! # A message as Anthropic streams it

A message is a list of content blocks, a stop reason and its usage. It is streamed as frames, each block
between its start and its stop and cut into any pieces, written as JSON and sent as bytes. The adapter gives
back the text, the reasoning, each tool call once, and the stop.
-/
namespace HermesEnterprise.Model
open Inbound Providers Foundation

section Writing

inductive SpokenBlock
  | words (pieces : List Text)
  | thinking (pieces : List Text) (signature : Text)
  | redacted (data : Text)
  | call (id name : Text) (pieces : List Text)

structure SpokenMessage where
  inputTokens : ℕ
  cachedTokens : ℕ
  blocks : List SpokenBlock
  stopReason : Text
  outputTokens : ℕ

/-- An object with a type. -/
def typed (type : String) (fields : Fields) : Fields := (text "type",.string (text type)) :: fields

def count (n : ℕ) : Json := .number (.finite n)

def startFrame (i : ℕ) (block : Fields) : Json :=
  .object (typed "content_block_start" [(text "index",count i),(text "content_block",.object block)])

def deltaFrame (i : ℕ) (type key : String) (piece : Text) : Json :=
  .object (typed "content_block_delta"
    [(text "index",count i),(text "delta",.object (typed type [(text key,.string piece)]))])

def stopFrame (i : ℕ) : Json := .object (typed "content_block_stop" [(text "index",count i)])

/-- The frames of the block at an index. -/
def SpokenBlock.frames (i : ℕ) : SpokenBlock → List Json
  | .words pieces =>
    startFrame i (typed "text" [(text "text",.string [])]) :: pieces.map (deltaFrame i "text_delta" "text") ++ [stopFrame i]
  | .thinking pieces signature =>
    startFrame i (typed "thinking" [(text "thinking",.string [])]) ::
      pieces.map (deltaFrame i "thinking_delta" "thinking") ++
      [deltaFrame i "signature_delta" "signature" signature,stopFrame i]
  | .redacted data => [startFrame i (typed "redacted_thinking" [(text "data",.string data)]),stopFrame i]
  | .call id name pieces =>
    startFrame i (typed "tool_use" [(text "id",.string id),(text "name",.string name),(text "input",.object [])]) ::
      pieces.map (deltaFrame i "input_json_delta" "partial_json") ++ [stopFrame i]

def blockFrames : ℕ → List SpokenBlock → List Json
  | _, [] => []
  | i, block :: rest => block.frames i ++ blockFrames (i + 1) rest

/-- `message_start`. -/
def SpokenMessage.opening (m : SpokenMessage) : Json :=
  .object (typed "message_start" [(text "message",.object [(text "usage",.object
    [(text "input_tokens",count m.inputTokens),(text "cache_read_input_tokens",count m.cachedTokens),
      (text "output_tokens",count 0)])])])

/-- `message_delta`. -/
def SpokenMessage.closing (m : SpokenMessage) : Json :=
  .object (typed "message_delta" [(text "delta",.object [(text "stop_reason",.string m.stopReason)]),
    (text "usage",.object [(text "output_tokens",count m.outputTokens)])])

def SpokenMessage.frames (m : SpokenMessage) : List Json := m.opening :: blockFrames 0 m.blocks ++ [m.closing]

/-- What a block says while it is streamed. -/
def SpokenBlock.events : SpokenBlock → List ProviderEvent
  | .words pieces => (pieces.filter fun piece => piece ≠ []).map .textDelta
  | .thinking pieces _ => (pieces.filter fun piece => piece ≠ []).map .reasoningDelta
  | .redacted _ => []
  | .call id name pieces =>
    [.toolCall ⟨id,name,if pieces.flatten = [] then text "\x7b\x7d" else pieces.flatten⟩]

/-- The reasoning of a block, as the next request sends it back. -/
def SpokenBlock.carried : SpokenBlock → List ThinkingBlock
  | .thinking pieces signature => [⟨false,some pieces.flatten,none,some signature⟩]
  | .redacted data => [⟨true,none,some data,none⟩]
  | .words _ | .call .. => []

def SpokenMessage.usage (m : SpokenMessage) : Usage :=
  ⟨.finite m.inputTokens,.finite m.outputTokens,.finite m.cachedTokens,zero⟩

/-- What the adapter yields for a message. -/
def SpokenMessage.events (m : SpokenMessage) : List ProviderEvent :=
  let carried := m.blocks.flatMap SpokenBlock.carried
  m.blocks.flatMap SpokenBlock.events ++
    (if carried.isEmpty then [] else [.reasoning (.anthropicThinking carried)]) ++
    [.usage m.usage,.stop (stopReasonOf anthropicStopReasons m.stopReason)]

/-- Thinking is signed, and the arguments of a call are JSON. -/
def SpokenBlock.Sound (P : Platform) : SpokenBlock → Prop
  | .thinking _ signature => signature ≠ []
  | .call _ _ pieces => (P.parse (if pieces.flatten = [] then text "\x7b\x7d" else pieces.flatten)).isSome = true
  | _ => True

end Writing

section Values
variable {σ : Type} {P : Platform} {A : Adapter σ}

/-- A frame that holds a value as its JSON. -/
structure Holds (P : Platform) (frame : SseFrame) (value : Json) : Prop where
  data : frame.data = stringify P value
  object : ∃ fields, value = .object fields
  parsed : P.parse (stringify P value) = some value

theorem Holds.take {frame : SseFrame} {value : Json} (h : Holds P frame value) (s : σ) :
    A.take P s frame = A.frame s value := by
  obtain ⟨fields,rfl⟩ := h.object
  have hdone : ¬ (frame.data = [] ∨ frame.data = text "[DONE]") := by
    rw [h.data]
    rintro (hnil | hdone)
    · cases hnil
    · have hhead : some (unit '\x7b') = some (unit '[') := congrArg List.head? hdone
      exact absurd hhead (by decide)
  have hparse : parseFrameJson P frame = .ok (some (.object fields)) := by
    unfold parseFrameJson
    rw [if_neg hdone, h.data, h.parsed]
    rfl
  unfold Adapter.take
  rw [hparse]
  rfl

end Values

section Blocks
variable {P : Platform} {s : AnthropicState} {i : ℕ} {piece : Text}

/-- Between two blocks no call is open and no thinking. -/
structure Between (s : AnthropicState) : Prop where
  calls : s.partialCalls = []
  current : s.current = none

/-- The adapter's state once a message is over. -/
def SpokenMessage.ended (m : SpokenMessage) : AnthropicState :=
  ⟨m.usage,stopReasonOf anthropicStopReasons m.stopReason,m.blocks.flatMap SpokenBlock.carried,[],none⟩

end Blocks

section Bytes
variable {P : Platform} {stream : List (Bool × Sent)}

/-- An event or a comment is one line of whole characters. -/
def Sent.Named : Sent → Prop
  | .frame f => ∀ e ∈ f.event, oneLine e ∧ Utf16.wellFormed e = true
  | .comment words => oneLine words ∧ Utf16.wellFormed words = true

/-- What is sent as data stands on one line and does not end in white space. -/
def Packed (data : Text) : Prop := Inline data ∧ ∀ c, data.getLast? = some c → isSpace c = false

theorem oneLine_of_inline {t : Text} (h : Inline t) : oneLine t :=
  ⟨fun hc => absurd (h.units _ hc) (by decide),fun hc => absurd (h.units _ hc) (by decide)⟩

theorem wellFormed_lineEnd (crlf : Bool) : Utf16.wellFormed (lineEnd crlf) = true := by
  cases crlf <;> decide

theorem wellFormed_flatMap {α : Type} {xs : List α} {f : α → Text} (h : ∀ x ∈ xs, Utf16.wellFormed (f x) = true) :
    Utf16.wellFormed (xs.flatMap f) = true := by
  induction xs with
  | nil => rfl
  | cons x rest ih =>
    rw [List.flatMap_cons]
    exact Utf16.wellFormed_append (h x List.mem_cons_self) (ih fun y hy => h y (List.mem_cons_of_mem _ hy))

theorem Sent.Named.plain {s : Sent} (h : s.Named) (hdata : ∀ f, s.frame? = some f → Packed f.data) : s.Plain := by
  cases s with
  | frame f =>
    have hpacked := hdata f rfl
    refine ⟨fun e he => (h e he).1,(oneLine_of_inline hpacked.1).2,fun c hc hspace => ?_⟩
    rw [hpacked.2 c hc] at hspace
    cases hspace
  | comment words => exact h.1

theorem Sent.Named.wellFormed {s : Sent} (h : s.Named) (hdata : ∀ f, s.frame? = some f → Packed f.data) (crlf : Bool) :
    Utf16.wellFormed (s.written crlf) = true := by
  have hlines : ∀ line ∈ s.lines, Utf16.wellFormed line = true := by
    intro line hline
    cases s with
    | frame f =>
      rcases List.mem_append.mp hline with hline | hline
      · obtain ⟨e,he,rfl⟩ := Option.map_eq_some_iff.mp (Option.mem_toList.mp hline)
        exact Utf16.wellFormed_append (by decide) (h e he).2
      · have hpacked := hdata f rfl
        rw [List.splitOn_eq_singleton (oneLine_of_inline hpacked.1).1, List.map_singleton] at hline
        rw [List.mem_singleton.mp hline]
        exact Utf16.wellFormed_append (by decide) hpacked.1.form
    | comment words =>
      rw [List.mem_singleton.mp hline]
      exact Utf16.wellFormed_append (by decide) h.2
  refine Utf16.wellFormed_append (wellFormed_flatMap fun line hline => ?_) (wellFormed_lineEnd crlf)
  exact Utf16.wellFormed_append (hlines line hline) (wellFormed_lineEnd crlf)

end Bytes

end HermesEnterprise.Model
