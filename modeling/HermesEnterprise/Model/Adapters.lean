import HermesEnterprise.Model.Frames
import HermesEnterprise.Model.Reasoning

/-! # Streams of the provider adapters

Each adapter folds the frames of a response into events, and ends with the reasoning to carry, the usage and
a stop. A frame that is no JSON, an error frame or a read that fails is thrown instead; an abort is a stop. A
field of another type than its interface says reads as absent.
-/
namespace HermesEnterprise.Model
open Inbound Providers

section Values
variable (fields : Fields) (key : Text)

/-- What a condition takes for true. -/
def truthy : Json → Bool
  | .null => false
  | .bool b => b
  | .number n => n ≠ .finite 0
  | .string s => !s.isEmpty
  | .array _ | .object _ => true

def Json.number? : Json → Option Number
  | .number n => some n
  | _ => none

def textAt : Option Text := (get fields key).bind Json.text?

def numberAt : Option Number := (get fields key).bind Json.number?

def fieldsAt : Option Fields := (get fields key).bind Json.fields?

def itemsAt : Option (List Json) := (get fields key).bind Json.items?

/-- A text that is there and not empty. -/
def wordsAt : Option Text := (textAt fields key).filter fun s => !s.isEmpty

def zero : Number := .finite 0

/-- `fields[key]?.[inner] ?? 0`. -/
def detailAt (inner : Text) : Number := ((fieldsAt fields key).bind fun details => numberAt details inner).getD zero

end Values

inductive StopReason
  | endTurn
  | toolUse
  | maxTokens
  | stopped
  | error
  deriving DecidableEq, Repr

structure Usage where
  inputTokens : Number
  outputTokens : Number
  cachedInputTokens : Number
  reasoningTokens : Number
  deriving DecidableEq

def zeroUsage : Usage := ⟨zero,zero,zero,zero⟩

inductive ProviderEvent
  | textDelta (text : Text)
  | reasoningDelta (text : Text)
  | reasoning (carry : ReasoningCarry)
  | toolCall (call : ToolCall)
  | usage (usage : Usage)
  | stop (reason : StopReason)

/-- What an adapter throws while it reads. -/
inductive StreamFailure
  | notJson
  /-- `error` names the frame's error, or is absent. -/
  | errorFrame (error : Option Text)
  | reported (status : Number)
  | credits
  | badArguments (name : Text)
  /-- The message of `networkError`, redacted. -/
  | transport (message : Text)
  deriving DecidableEq

/-- How a failure is handled. -/
def StreamFailure.failure : StreamFailure → String
  | .notJson | .errorFrame _ | .transport _ => "transient"
  | .reported status =>
    if status = .finite 401 ∨ status = .finite 403 then "auth"
    else if status = .finite 429 then "rate_limit"
    else "transient"
  | .credits => "permanent"
  | .badArguments _ => "malformed"

/-- The status that is thrown with a failure. -/
def StreamFailure.status : StreamFailure → Option Number
  | .reported status => some status
  | .credits => some (.finite 402)
  | _ => none

/-- How an adapter names itself in its errors. -/
structure Wording where
  provider : String
  label : String
  /-- What it says when the account is out of credits. -/
  credits : String

def StreamFailure.message (P : Platform) (words : Wording) : StreamFailure → Text
  | .notJson => text (words.provider ++ " sent a frame that is not JSON")
  | .errorFrame error => text (words.provider ++ " sent an error frame (") ++ error.getD (text "unknown") ++ text ")"
  | .reported status => text (words.label ++ " reported ") ++ display P (.number status) ++ text " mid-stream"
  | .credits => text words.credits
  | .badArguments name => text "tool arguments for " ++ name ++ text " are not JSON"
  | .transport message => text (words.provider ++ " transport failed: ") ++ message

/-- The `ProviderError` that is thrown; its status stands beside it. -/
def StreamFailure.thrown (P : Platform) (words : Wording) (failure : StreamFailure) : ProviderError :=
  ⟨failure.message P words,failure.failure,words.provider⟩

/-- How reading the body ended. -/
inductive Ending
  | finished
  | aborted
  | failed (message : Text)
  deriving DecidableEq

section Adapter

/-- A provider's fold over the values of its frames. A frame is thrown at or gives its events. -/
structure Adapter (σ : Type) where
  words : Wording
  start : σ
  frame : σ → Json → Except StreamFailure (σ × List ProviderEvent)
  finish : σ → List ProviderEvent × Option StreamFailure

variable {σ : Type} (P : Platform) (A : Adapter σ)

/-- `parseFrameJson`: nothing, a value, or a frame that is no JSON. -/
def parseFrameJson (frame : SseFrame) : Except StreamFailure (Option Json) :=
  if frame.data = [] ∨ frame.data = text "[DONE]" then .ok none
  else
    match P.parse frame.data with
    | none => .error .notJson
    | some value => .ok (if truthy value then some value else none)

def Adapter.take (s : σ) (frame : SseFrame) : Except StreamFailure (σ × List ProviderEvent) := do
  match ← parseFrameJson P frame with
  | none => return (s,[])
  | some value => A.frame s value

/-- The events of the frames, and the state after them or what was thrown at one. -/
def Adapter.read (s : σ) : List SseFrame → List ProviderEvent × Except StreamFailure σ
  | [] => ([],.ok s)
  | frame :: rest =>
    match A.take P s frame with
    | .error failure => ([],.error failure)
    | .ok (next,events) =>
      let later := Adapter.read next rest
      (events ++ later.1,later.2)

/-- `stream()` over the frames of a body: what it yields, and what it throws at last. -/
def Adapter.stream (frames : List SseFrame) (ending : Ending) : List ProviderEvent × Option StreamFailure :=
  match A.read P A.start frames with
  | (events,.error failure) => (events,some failure)
  | (events,.ok s) =>
    match ending with
    | .finished =>
      let last := A.finish s
      (events ++ last.1,last.2)
    | .aborted => (events ++ [.stop .stopped],none)
    | .failed message => (events,some (.transport message))

/-- The same over the chunks of the body. A read that fails leaves a frame that is not complete unread. -/
def Adapter.streamBody (chunks : List (List UInt8)) (ending : Ending) : List ProviderEvent × Option StreamFailure :=
  A.stream P (if ending = .finished then readSse chunks else readTorn chunks) ending

end Adapter

section Chat
variable (P : Platform)

/-- A tool call that is put together from its fragments. -/
structure OpenCall where
  id : Text
  name : Text
  args : Text
  deriving DecidableEq

/-- One element of `tool_calls`. An absent text adds nothing. -/
structure CallFragment where
  index : Number
  id : Text
  name : Text
  args : Text
  deriving DecidableEq

def CallFragment.of (call : Json) : CallFragment :=
  let fields := (call.fields?).getD []
  let function := (fieldsAt fields (text "function")).getD []
  ⟨(numberAt fields (text "index")).getD zero,(textAt fields (text "id")).getD [],
    (textAt function (text "name")).getD [],(textAt function (text "arguments")).getD []⟩

def OpenCall.add (open_ : OpenCall) (f : CallFragment) : OpenCall :=
  ⟨if f.id = [] then open_.id else f.id,open_.name ++ f.name,open_.args ++ f.args⟩

abbrev Calls := List (Number × OpenCall)

def Calls.get (calls : Calls) (index : Number) : OpenCall :=
  ((calls.find? fun e => e.1 = index).map Prod.snd).getD ⟨[],[],[]⟩

/-- `Map.set`: an entry that is set again keeps its place. -/
def Calls.set (calls : Calls) (index : Number) (call : OpenCall) : Calls :=
  if calls.any fun e => e.1 = index then calls.map fun e => if e.1 = index then (index,call) else e
  else calls ++ [(index,call)]

def addFragment (calls : Calls) (f : CallFragment) : Calls := calls.set f.index ((calls.get f.index).add f)

def Calls.ordered (calls : Calls) : List OpenCall :=
  (calls.mergeSort fun a b => rank a.1 ≤ rank b.1).map Prod.snd

/-- The calls in turn, up to the first whose arguments are no JSON. -/
def yieldCalls : List OpenCall → List ProviderEvent × Option StreamFailure
  | [] => ([],none)
  | call :: rest =>
    let args := if call.args = [] then text "\x7b\x7d" else call.args
    match P.parse args with
    | none => ([],some (.badArguments call.name))
    | some _ =>
      let later := yieldCalls rest
      (.toolCall ⟨call.id,call.name,args⟩ :: later.1,later.2)

/-- What differs between the Chat Completions adapters. -/
structure ChatDialect where
  words : Wording
  /-- Whether an `error` in a frame is looked at. -/
  readsErrors : Bool
  stopReasons : List (String × StopReason)
  cachedTokens : Fields → Number
  reasoningKey : Text
  /-- Whether the reasoning that is carried is the ordered details, or the text of the deltas. -/
  carriesDetails : Bool
  carry : List ReasoningDetail → Text → ReasoningCarry

structure ChatState where
  usage : Usage
  stop : StopReason
  details : Blocks
  reasoning : Text
  calls : Calls

def ChatState.fresh : ChatState := ⟨zeroUsage,.endTurn,[],[],[]⟩

variable (dialect : ChatDialect)

/-- An error that a provider puts into the stream. -/
def chatError (error : Json) : StreamFailure :=
  let status := ((error.fields?).bind fun fields => numberAt fields (text "code")).getD (.finite 502)
  if status = .finite 402 then .credits else .reported status

def chatUsage (usage : Fields) : Usage :=
  ⟨(numberAt usage (text "prompt_tokens")).getD zero,(numberAt usage (text "completion_tokens")).getD zero,
    dialect.cachedTokens usage,detailAt usage (text "completion_tokens_details") (text "reasoning_tokens")⟩

def stopReasonOf (table : List (String × StopReason)) (reason : Text) : StopReason :=
  ((table.find? fun e => text e.1 = reason).map Prod.snd).getD .endTurn

def ChatState.readUsage (s : ChatState) (event : Fields) : ChatState :=
  match fieldsAt event (text "usage") with
  | none => s
  | some usage => { s with usage := chatUsage dialect usage }

/-- The fragments of a delta, in order. -/
def fragmentsOf (delta : Fields) : List CallFragment :=
  ((itemsAt delta (text "tool_calls")).getD []).map CallFragment.of

def detailsOf (delta : Fields) : List ReasoningDetail :=
  ((itemsAt delta (text "reasoning_details")).getD []).filterMap Json.fields?

def ChatState.readDelta (s : ChatState) (delta : Fields) : ChatState × List ProviderEvent :=
  let words := wordsAt delta dialect.reasoningKey
  ({ s with
      details := if dialect.carriesDetails then mergeReasoningDetails P s.details (detailsOf delta) else s.details
      reasoning := if dialect.carriesDetails then s.reasoning else s.reasoning ++ words.getD []
      calls := (fragmentsOf delta).foldl addFragment s.calls },
    (words.map ProviderEvent.reasoningDelta).toList ++
      ((wordsAt delta (text "content")).map ProviderEvent.textDelta).toList)

def ChatState.readChoice (s : ChatState) (choice : Fields) : ChatState × List ProviderEvent :=
  let read := s.readDelta P dialect ((fieldsAt choice (text "delta")).getD [])
  match wordsAt choice (text "finish_reason") with
  | none => read
  | some reason => ({ read.1 with stop := stopReasonOf dialect.stopReasons reason },read.2)

def chatFrame (s : ChatState) (value : Json) : Except StreamFailure (ChatState × List ProviderEvent) :=
  let event := (value.fields?).getD []
  match (get event (text "error")).filter fun error => dialect.readsErrors && truthy error with
  | some error => .error (chatError error)
  | none =>
    let counted := s.readUsage dialect event
    match (itemsAt event (text "choices")).bind List.head? with
    | none => .ok (counted,[])
    | some choice => .ok (if truthy choice then counted.readChoice P dialect ((choice.fields?).getD []) else (counted,[]))

/-- The reasoning that is carried, when there is some. -/
def ChatState.carried (s : ChatState) : List ProviderEvent :=
  if dialect.carriesDetails then
    if s.details.isEmpty then []
    else [.reasoning (dialect.carry ((s.details.mergeSort fun a b => rank a.1 ≤ rank b.1).map Prod.snd) [])]
  else if s.reasoning = [] then [] else [.reasoning (dialect.carry [] s.reasoning)]

def chatFinish (s : ChatState) : List ProviderEvent × Option StreamFailure :=
  let calls := yieldCalls P s.calls.ordered
  match calls.2 with
  | some failure => (calls.1,some failure)
  | none => (calls.1 ++ s.carried dialect ++ [.usage s.usage,.stop s.stop],none)

def chatAdapter : Adapter ChatState where
  words := dialect.words
  start := .fresh
  frame := chatFrame P dialect
  finish := chatFinish P dialect

def chatStopReasons : List (String × StopReason) :=
  [("stop",.endTurn),("tool_calls",.toolUse),("length",.maxTokens),("content_filter",.error),("error",.error)]

def promptCached (usage : Fields) : Number := detailAt usage (text "prompt_tokens_details") (text "cached_tokens")

def openRouter : ChatDialect where
  words := ⟨"openrouter","openrouter",
    "Your OpenRouter account is out of credits. Add credit at openrouter.ai/credits, then run again."⟩
  readsErrors := true
  stopReasons := chatStopReasons
  cachedTokens := promptCached
  reasoningKey := text "reasoning"
  carriesDetails := true
  carry := fun details _ => .openrouterReasoningDetails details

def nousPortal : ChatDialect where
  words := ⟨"nous_portal","Nous Portal",
    "Your Nous Portal subscription cannot run this request. Check the workspace subscription, then run again."⟩
  readsErrors := true
  stopReasons := chatStopReasons
  cachedTokens := promptCached
  reasoningKey := text "reasoning"
  carriesDetails := true
  carry := fun details _ => .nousReasoningDetails details

def deepSeek : ChatDialect where
  words := ⟨"deepseek","deepseek",""⟩
  readsErrors := false
  stopReasons := [("stop",.endTurn),("tool_calls",.toolUse),("length",.maxTokens),("insufficient_system_resource",.error)]
  cachedTokens := fun usage => (numberAt usage (text "prompt_cache_hit_tokens")).getD zero
  reasoningKey := text "reasoning_content"
  carriesDetails := false
  carry := fun _ content => .deepseekReasoningContent content

end Chat

section Anthropic
variable (P : Platform)

structure AnthropicState where
  usage : Usage
  stop : StopReason
  thinkingBlocks : List ThinkingBlock
  /-- Tool calls that are not closed yet, by the index of their block. -/
  partialCalls : Calls
  current : Option Text

def AnthropicState.fresh : AnthropicState := ⟨zeroUsage,.endTurn,[],[],none⟩

def anthropicStopReasons : List (String × StopReason) :=
  [("end_turn",.endTurn),("tool_use",.toolUse),("max_tokens",.maxTokens),("stop_sequence",.endTurn),("refusal",.endTurn)]

def anthropicUsage (raw : Option Fields) (previous : Usage) : Usage :=
  match raw with
  | none => previous
  | some raw =>
    let cached := (numberAt raw (text "cache_read_input_tokens")).getD zero
    ⟨(numberAt raw (text "input_tokens")).getD previous.inputTokens,
      (numberAt raw (text "output_tokens")).getD previous.outputTokens,
      if cached = zero then previous.cachedInputTokens else cached,previous.reasoningTokens⟩

def indexAt (event : Fields) : Number := (numberAt event (text "index")).getD zero

def AnthropicState.startBlock (s : AnthropicState) (index : Number) (block : Fields) : AnthropicState :=
  let type := textAt block (text "type")
  let call : OpenCall := ⟨(textAt block (text "id")).getD [],(textAt block (text "name")).getD [],[]⟩
  if type = some (text "tool_use") then { s with partialCalls := s.partialCalls.set index call }
  else if type = some (text "thinking") then { s with current := some [] }
  else if type = some (text "redacted_thinking") then
    { s with thinkingBlocks := s.thinkingBlocks ++ [⟨true,none,textAt block (text "data"),none⟩] }
  else s

/-- `open.json += piece`, where a call is open at the index. -/
def Calls.extend (calls : Calls) (index : Number) (piece : Text) : Calls :=
  calls.map fun e => if e.1 = index then (index,{ e.2 with args := e.2.args ++ piece }) else e

def AnthropicState.readDelta (s : AnthropicState) (index : Number) (delta : Fields) : AnthropicState × List ProviderEvent :=
  let type := textAt delta (text "type")
  if type = some (text "text_delta") then
    match wordsAt delta (text "text") with
    | some words => (s,[.textDelta words])
    | none => (s,[])
  else if type = some (text "thinking_delta") then
    match wordsAt delta (text "thinking") with
    | some words => ({ s with current := s.current.map (· ++ words) },[.reasoningDelta words])
    | none => (s,[])
  else if type = some (text "signature_delta") then
    match wordsAt delta (text "signature") with
    | some signature =>
      ({ s with thinkingBlocks := s.thinkingBlocks ++ [⟨false,some (s.current.getD []),none,some signature⟩], current := none },[])
    | none => (s,[])
  else if type = some (text "input_json_delta") then
    match textAt delta (text "partial_json") with
    | some piece => ({ s with partialCalls := s.partialCalls.extend index piece },[])
    | none => (s,[])
  else (s,[])

/-- A call is closed with its block. -/
def AnthropicState.stopBlock (s : AnthropicState) (index : Number) : Except StreamFailure (AnthropicState × List ProviderEvent) :=
  match s.partialCalls.find? fun e => e.1 = index with
  | none => .ok (s,[])
  | some (_,call) =>
    let args := if call.args = [] then text "\x7b\x7d" else call.args
    match P.parse args with
    | none => .error (.badArguments call.name)
    | some _ =>
      .ok ({ s with partialCalls := s.partialCalls.filter fun e => e.1 ≠ index },[.toolCall ⟨call.id,call.name,args⟩])

def anthropicFrame (s : AnthropicState) (value : Json) : Except StreamFailure (AnthropicState × List ProviderEvent) :=
  let event := (value.fields?).getD []
  let type := textAt event (text "type")
  if type = some (text "message_start") then
    let usage := (fieldsAt event (text "message")).bind fun message => fieldsAt message (text "usage")
    .ok ({ s with usage := anthropicUsage usage s.usage },[])
  else if type = some (text "content_block_start") then
    match fieldsAt event (text "content_block") with
    | none => .ok (s,[])
    | some block => .ok (s.startBlock (indexAt event) block,[])
  else if type = some (text "content_block_delta") then
    match fieldsAt event (text "delta") with
    | none => .ok (s,[])
    | some delta => .ok (s.readDelta (indexAt event) delta)
  else if type = some (text "content_block_stop") then s.stopBlock P (indexAt event)
  else if type = some (text "message_delta") then
    let counted := { s with usage := anthropicUsage (fieldsAt event (text "usage")) s.usage }
    match (fieldsAt event (text "delta")).bind fun delta => wordsAt delta (text "stop_reason") with
    | none => .ok (counted,[])
    | some reason => .ok ({ counted with stop := stopReasonOf anthropicStopReasons reason },[])
  else if type = some (text "error") then
    .error (.errorFrame ((fieldsAt event (text "error")).bind fun error => textAt error (text "type")))
  else .ok (s,[])

def anthropicFinish (s : AnthropicState) : List ProviderEvent × Option StreamFailure :=
  ((if s.thinkingBlocks.isEmpty then [] else [.reasoning (.anthropicThinking s.thinkingBlocks)]) ++
    [.usage s.usage,.stop s.stop],none)

def anthropicAdapter : Adapter AnthropicState where
  words := ⟨"anthropic","anthropic",""⟩
  start := .fresh
  frame := anthropicFrame P
  finish := anthropicFinish

end Anthropic

section OpenAi
variable (P : Platform)

structure OpenAiState where
  usage : Usage
  stop : StopReason
  sawToolCall : Bool
  reasoningItems : List (Option Text × Text)

def OpenAiState.fresh : OpenAiState := ⟨zeroUsage,.endTurn,false,[]⟩

def OpenAiState.readCall (s : OpenAiState) (item : Fields) : Except StreamFailure (OpenAiState × List ProviderEvent) :=
  let args := (wordsAt item (text "arguments")).getD (text "\x7b\x7d")
  let name := textAt item (text "name")
  match P.parse args with
  | none => .error (.badArguments (name.getD (text "a tool")))
  | some _ =>
    let id := ((textAt item (text "call_id")).or (textAt item (text "id"))).getD []
    .ok ({ s with sawToolCall := true },[.toolCall ⟨id,name.getD [],args⟩])

/-- A finished item: reasoning that is encrypted, or a call. -/
def OpenAiState.readItem (s : OpenAiState) (item : Fields) : Except StreamFailure (OpenAiState × List ProviderEvent) :=
  let type := textAt item (text "type")
  match (wordsAt item (text "encrypted_content")).filter fun _ => type = some (text "reasoning") with
  | some content => .ok ({ s with reasoningItems := s.reasoningItems ++ [(textAt item (text "id"),content)] },[])
  | none => if type = some (text "function_call") then s.readCall P item else .ok (s,[])

def openAiUsage (usage : Fields) : Usage :=
  ⟨(numberAt usage (text "input_tokens")).getD zero,(numberAt usage (text "output_tokens")).getD zero,
    detailAt usage (text "input_tokens_details") (text "cached_tokens"),
    detailAt usage (text "output_tokens_details") (text "reasoning_tokens")⟩

/-- `response.completed` and `response.incomplete`. -/
def OpenAiState.readResponse (s : OpenAiState) (response : Fields) : OpenAiState :=
  let counted := match fieldsAt response (text "usage") with
    | none => s
    | some usage => { s with usage := openAiUsage usage }
  let reason := (fieldsAt response (text "incomplete_details")).bind fun details => textAt details (text "reason")
  if reason = some (text "max_output_tokens") then { counted with stop := .maxTokens } else counted

def openAiFrame (s : OpenAiState) (value : Json) : Except StreamFailure (OpenAiState × List ProviderEvent) :=
  let event := (value.fields?).getD []
  let type := textAt event (text "type")
  if type = some (text "response.output_text.delta") then
    .ok (s,((wordsAt event (text "delta")).map ProviderEvent.textDelta).toList)
  else if type = some (text "response.reasoning_summary_text.delta") then
    .ok (s,((wordsAt event (text "delta")).map ProviderEvent.reasoningDelta).toList)
  else if type = some (text "response.output_item.done") then
    match fieldsAt event (text "item") with
    | none => .ok (s,[])
    | some item => s.readItem P item
  else if type = some (text "response.completed") ∨ type = some (text "response.incomplete") then
    .ok (s.readResponse ((fieldsAt event (text "response")).getD []),[])
  else if type = some (text "response.failed") ∨ type = some (text "error") then
    .error (.errorFrame ((fieldsAt event (text "error")).bind fun error => textAt error (text "type")))
  else .ok (s,[])

def openAiFinish (s : OpenAiState) : List ProviderEvent × Option StreamFailure :=
  let stop := if s.sawToolCall ∧ s.stop = .endTurn then .toolUse else s.stop
  ((if s.reasoningItems.isEmpty then [] else [.reasoning (.openaiEncrypted s.reasoningItems)]) ++
    [.usage s.usage,.stop stop],none)

def openAiAdapter : Adapter OpenAiState where
  words := ⟨"openai","openai",""⟩
  start := .fresh
  frame := openAiFrame P
  finish := openAiFinish

end OpenAi

end HermesEnterprise.Model
