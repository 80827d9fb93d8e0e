import HermesEnterprise.Providers.Json
import Mathlib.Data.Prod.Lex

/-! # Reasoning that is carried

A provider streams the reasoning of a turn in fragments. The adapter puts them together as blocks, the turn
stores them as JSON, and the next request sends them back. OpenRouter and Nous merge by index; Anthropic
closes a block with its signature.
-/
namespace HermesEnterprise.Model
open Inbound Providers

section Values

/-- The order of map keys that are numbers. -/
def rank : Number → Lex (ℤ × ℚ)
  | .infinite true => toLex (-1,0)
  | .finite value => toLex (0,value)
  | .infinite false => toLex (1,0)

mutual

/-- `String` of a value. -/
def display (P : Platform) : Json → Text
  | .null => text "null"
  | .bool true => text "true"
  | .bool false => text "false"
  | .number (.finite value) => P.numberText value
  | .number (.infinite true) => text "-Infinity"
  | .number (.infinite false) => text "Infinity"
  | .string s => s
  | .array items => join (text ",") (displayItems P items)
  | .object _ => text "[object Object]"

def displayItems (P : Platform) : List Json → List Text
  | [] => []
  | .null :: rest => [] :: displayItems P rest
  | item :: rest => display P item :: displayItems P rest

end

mutual

/-- A value that was written as JSON and read again: an infinite number is null then. -/
def stored : Json → Json
  | .number (.infinite _) => .null
  | .array items => .array (storedItems items)
  | .object fields => .object (storedFields fields)
  | value => value

def storedItems : List Json → List Json
  | [] => []
  | item :: rest => stored item :: storedItems rest

def storedFields : List (Text × Json) → List (Text × Json)
  | [] => []
  | (key,value) :: rest => (key,stored value) :: storedFields rest

end

/-- `{ ...open, ...detail }`: the fields of `open` keep their place. -/
def assign (base detail : Fields) : Fields :=
  base.map (fun e => (e.1,(get detail e.1).getD e.2)) ++ detail.filter fun e => (get base e.1).isNone

end Values

/-- An element of `reasoning_details`, open to fields nobody listed. -/
abbrev ReasoningDetail := Fields

structure ThinkingBlock where
  redacted : Bool
  thinking : Option Text
  data : Option Text
  signature : Option Text
  deriving DecidableEq

inductive ReasoningCarry
  | anthropicThinking (blocks : List ThinkingBlock)
  | deepseekReasoningContent (content : Text)
  | openrouterReasoningDetails (details : List ReasoningDetail)
  | nousReasoningDetails (details : List ReasoningDetail)
  | openaiEncrypted (items : List (Option Text × Text))

def ReasoningCarry.kind : ReasoningCarry → String
  | anthropicThinking _ => "anthropic_thinking"
  | deepseekReasoningContent _ => "deepseek_reasoning_content"
  | openrouterReasoningDetails _ => "openrouter_reasoning_details"
  | nousReasoningDetails _ => "nous_reasoning_details"
  | openaiEncrypted _ => "openai_encrypted"

section Merging
variable (P : Platform)

abbrev Blocks := List (Number × ReasoningDetail)

def Blocks.get (into : Blocks) (index : Number) : Option ReasoningDetail :=
  (into.find? fun e => e.1 = index).map Prod.snd

/-- `Map.set`: an entry that is set again keeps its place. -/
def Blocks.set (into : Blocks) (index : Number) (detail : ReasoningDetail) : Blocks :=
  if into.any fun e => e.1 = index then into.map fun e => if e.1 = index then (index,detail) else e
  else into ++ [(index,detail)]

/-- The index of a detail that has a numeric one. -/
def indexOf (detail : ReasoningDetail) : Option Number :=
  match get detail (text "index") with
  | some (.number index) => some index
  | _ => none

/-- How an open value stands in a template. -/
def templateText : Option Json → Text
  | none | some .null => []
  | some value => display P value

/-- Append a streamed piece to what is open. -/
def appendText (open_ detail : ReasoningDetail) (key : Text) (merged : ReasoningDetail) : ReasoningDetail :=
  match get detail key with
  | some (.string piece) => setEntry merged key (.string (templateText P (get open_ key) ++ piece))
  | _ => merged

def mergeDetail (open_ : Option ReasoningDetail) (detail : ReasoningDetail) (index : Number) : ReasoningDetail :=
  match open_ with
  | none => setEntry detail (text "index") (.number index)
  | some open_ =>
    let merged := setEntry (assign open_ detail) (text "index") (.number index)
    appendText P open_ detail (text "summary") (appendText P open_ detail (text "text") merged)

/-- One detail, under its own index or the next fallback. -/
def mergeNext (s : Blocks × ℕ) (detail : ReasoningDetail) : Blocks × ℕ :=
  match indexOf detail with
  | some index => (s.1.set index (mergeDetail P (s.1.get index) detail index),s.2)
  | none =>
    let index : Number := .finite s.2
    (s.1.set index (mergeDetail P (s.1.get index) detail index),s.2 + 1)

def mergeReasoningDetails (into : Blocks) (details : List ReasoningDetail) : Blocks :=
  (details.foldl (mergeNext P) (into,into.length)).1

def mergeNousReasoningDetails (into : Blocks) (details : List ReasoningDetail) : Blocks :=
  mergeReasoningDetails P into details

/-- The blocks of a stream, in the order of their indices. -/
def orderedDetails (merge : Blocks → List ReasoningDetail → Blocks) (frames : List (List ReasoningDetail)) :
    List ReasoningDetail :=
  ((frames.foldl merge []).mergeSort fun a b => rank a.1 ≤ rank b.1).map Prod.snd

/-- What the OpenRouter stream yields from the details of its frames. -/
def openRouterCarry (frames : List (List ReasoningDetail)) : Option ReasoningCarry :=
  if (frames.foldl (mergeReasoningDetails P) []).isEmpty then none
  else some (.openrouterReasoningDetails (orderedDetails (mergeReasoningDetails P) frames))

def nousCarry (frames : List (List ReasoningDetail)) : Option ReasoningCarry :=
  if (frames.foldl (mergeNousReasoningDetails P) []).isEmpty then none
  else some (.nousReasoningDetails (orderedDetails (mergeNousReasoningDetails P) frames))

end Merging

section Thinking

/-- The frames of an Anthropic stream, as far as they concern reasoning. -/
inductive ThinkingFrame
  | startThinking
  | startRedacted (data : Option Text)
  | thinkingDelta (thinking : Text)
  | signatureDelta (signature : Text)
  | other
  deriving DecidableEq

structure ThinkingState where
  blocks : List ThinkingBlock
  current : Option Text

def takeThinking (s : ThinkingState) : ThinkingFrame → ThinkingState
  | .startThinking => { s with current := some [] }
  | .startRedacted data => { s with blocks := s.blocks ++ [⟨true,none,data,none⟩] }
  | .thinkingDelta thinking => { s with current := s.current.map (· ++ thinking) }
  | .signatureDelta signature =>
    if signature = [] then s
    else ⟨s.blocks ++ [⟨false,some (s.current.getD []),none,some signature⟩],none⟩
  | .other => s

def thinkingBlocks (frames : List ThinkingFrame) : List ThinkingBlock :=
  (frames.foldl takeThinking ⟨[],none⟩).blocks

def anthropicCarry (frames : List ThinkingFrame) : Option ReasoningCarry :=
  if (thinkingBlocks frames).isEmpty then none else some (.anthropicThinking (thinkingBlocks frames))

end Thinking

section Replay

inductive Role
  | user | assistant | tool
  deriving DecidableEq, Repr

structure ToolCall where
  id : Text
  name : Text
  arguments : Text
  deriving DecidableEq

structure ProviderMessage where
  role : Role
  content : Text
  toolCallId : Option Text
  toolCalls : List ToolCall
  reasoning : Option ReasoningCarry

/-- The message after its turn was stored as JSON. -/
def ReasoningCarry.stored : ReasoningCarry → ReasoningCarry
  | openrouterReasoningDetails details => openrouterReasoningDetails (details.map storedFields)
  | nousReasoningDetails details => nousReasoningDetails (details.map storedFields)
  | carry => carry

/-- A refusal of the adapter, with how it failed. -/
structure ProviderError where
  message : Text
  failure : String
  provider : String
  deriving DecidableEq

def cannotReplay {α : Type} (carry : ReasoningCarry) (name provider : String) : Except ProviderError α :=
  .error ⟨text ("a " ++ carry.kind ++ " reasoning carry cannot be replayed to " ++ name),"permanent",provider⟩

/-- `reasoning_details` is left out when there is none. -/
inductive ChatMessage
  | system (content : Text)
  | tool (toolCallId : Option Text) (content : Text)
  | user (content : Text)
  | assistant (content : Text) (reasoningDetails : List ReasoningDetail) (toolCalls : List ToolCall)

/-- One message, with the details that its provider reads from the carry. -/
def chatMessage (readDetails : ReasoningCarry → Except ProviderError (List ReasoningDetail))
    (message : ProviderMessage) : Except ProviderError ChatMessage :=
  match message.role with
  | .tool => .ok (.tool message.toolCallId message.content)
  | .user => .ok (.user message.content)
  | .assistant =>
    match message.reasoning with
    | none => .ok (.assistant message.content [] message.toolCalls)
    | some carry => (readDetails carry).map fun details =>
      .assistant message.content details message.toolCalls

def openRouterDetails : ReasoningCarry → Except ProviderError (List ReasoningDetail)
  | .openrouterReasoningDetails details => .ok details
  | carry => cannotReplay carry "OpenRouter" "openrouter"

def nousDetails : ReasoningCarry → Except ProviderError (List ReasoningDetail)
  | .nousReasoningDetails details => .ok details
  | carry => cannotReplay carry "Nous Portal" "nous_portal"

def toChatMessages (system : Text) (messages : List ProviderMessage) :
    Except ProviderError (List ChatMessage) :=
  (messages.mapM (chatMessage openRouterDetails)).map (ChatMessage.system system :: ·)

def toNousChatMessages (system : Text) (messages : List ProviderMessage) :
    Except ProviderError (List ChatMessage) :=
  (messages.mapM (chatMessage nousDetails)).map (ChatMessage.system system :: ·)

/-- A content part of an Anthropic message. Absent fields are left out. -/
inductive ContentPart
  | thinking (thinking signature : Option Text)
  | redactedThinking (data : Option Text)
  | text (text : Text)
  | toolUse (id name : Text) (input : Json)
  | toolResult (toolUseId : Option Text) (content : Text)

inductive AnthropicMessage
  | user (content : Text)
  | userParts (content : List ContentPart)
  | assistant (content : List ContentPart)

def thinkingPart (block : ThinkingBlock) : ContentPart :=
  if block.redacted then .redactedThinking block.data else .thinking block.thinking block.signature

def reasoningParts : Option ReasoningCarry → Except ProviderError (List ContentPart)
  | none => .ok []
  | some (.anthropicThinking blocks) => .ok (blocks.map thinkingPart)
  | some carry => cannotReplay carry "Anthropic" "anthropic"

/-- `safeJson`. -/
def toolUse (P : Platform) (call : ToolCall) : Except ProviderError ContentPart :=
  match P.parse call.arguments with
  | some input => .ok (.toolUse call.id call.name input)
  | none => .error ⟨text "tool arguments for " ++ call.name ++ text " are not JSON","malformed","anthropic"⟩

def anthropicMessage (P : Platform) (message : ProviderMessage) : Except ProviderError AnthropicMessage :=
  match message.role with
  | .tool => .ok (.userParts [.toolResult message.toolCallId message.content])
  | .user => .ok (.user message.content)
  | .assistant => do
    let parts ← reasoningParts message.reasoning
    let calls ← message.toolCalls.mapM (toolUse P)
    return .assistant (parts ++ (if message.content = [] then [] else [.text message.content]) ++ calls)

def toAnthropicMessages (P : Platform) (messages : List ProviderMessage) :
    Except ProviderError (List AnthropicMessage) := messages.mapM (anthropicMessage P)

end Replay

end HermesEnterprise.Model
