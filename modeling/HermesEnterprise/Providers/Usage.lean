import HermesEnterprise.Foundation.Framing
import HermesEnterprise.Foundation.Utf8
import HermesEnterprise.Providers.Json

/-! # The usage of a call

The parser reads the bytes of a reply while they pass, line by line, and keeps the latest usage. What it
ends with depends on the bytes alone.
-/
namespace HermesEnterprise.Providers
open Inbound Foundation Foundation.Utf8 Foundation.Framing

structure ParsedProviderUsage where
  inputTokens : ℕ
  outputTokens : ℕ
  cachedInputTokens : ℕ
  deriving DecidableEq

/-- `a ?? b`. -/
def coalesce (a b : Option Json) : Option Json :=
  match a with
  | none => b
  | some .null => b
  | some value => some value

def usageFrom (value : Json) : Option ParsedProviderUsage := do
  let value ← value.fields?
  let usage := ((get value (text "usage")).bind Json.fields?).getD value
  let input ← (coalesce (get usage (text "prompt_tokens")) (get usage (text "input_tokens"))).bind tokenCount
  let output ← (coalesce (get usage (text "completion_tokens")) (get usage (text "output_tokens"))).bind tokenCount
  let promptDetails := (get usage (text "prompt_tokens_details")).bind Json.fields?
  let inputDetails := (get usage (text "input_tokens_details")).bind Json.fields?
  let cached := coalesce (promptDetails.bind fun details => get details (text "cached_tokens"))
    (coalesce (inputDetails.bind fun details => get details (text "cached_tokens"))
      (get usage (text "cached_input_tokens")))
  return ⟨input,output,(cached.bind tokenCount).getD 0⟩

/-- `^data:\s*(.+)$` of a trimmed line. -/
def dataOf (line : Text) : Option Text :=
  let line := trim line
  if (text "data:").isPrefixOf line then
    let payload := (line.drop 5).dropWhile isSpace
    if payload.isEmpty || payload.any isLineTerminator then none else some payload
  else none

variable (P : Platform)

/-- The latest usage after one more line. A line that does not parse is not trusted. -/
def readLine (latest : Option ParsedProviderUsage) (line : Text) : Option ParsedProviderUsage :=
  match dataOf line with
  | none => latest
  | some payload =>
    if payload = text "[DONE]" then latest
    else ((P.parse payload).bind usageFrom).or latest

def jsonLimit : ℕ := 1048576

structure ProviderUsageParser where
  decoder : TextDecoder
  lineBuffer : Text
  jsonBuffer : Text
  latest : Option ParsedProviderUsage

def ProviderUsageParser.fresh : ProviderUsageParser := ⟨.fresh,[],[],none⟩

def utf16 (chars : List Char) : Text := chars.flatMap fun c => fromCodePoint c.toNat

/-- `/\r?\n/`. -/
def lineEnds : Cutter CodeUnit := lines (unit '\n') (unit '\r')

def keepJson (buffer more : Text) : Text :=
  if buffer.length < jsonLimit then buffer ++ more.take (jsonLimit - buffer.length) else buffer

def ProviderUsageParser.push (p : ProviderUsageParser) (chunk : List UInt8) : ProviderUsageParser :=
  let decoded := p.decoder.push chunk
  let more := utf16 decoded.2
  let cutting := lineEnds.pieces (p.lineBuffer ++ more)
  ⟨decoded.1,cutting.2,keepJson p.jsonBuffer more,cutting.1.foldl (readLine P) p.latest⟩

/-- The rest of the reply is a line too. Without a usage line the reply is read as a whole. -/
def ProviderUsageParser.finish (p : ProviderUsageParser) : Option ParsedProviderUsage :=
  let tail := utf16 p.decoder.finish
  let line := p.lineBuffer ++ tail
  let latest := if line.isEmpty then p.latest else readLine P p.latest line
  latest.or ((P.parse (keepJson p.jsonBuffer tail)).bind usageFrom)

/-- The usage that the bytes of a whole reply tell. -/
def usageOf (bytes : List UInt8) : Option ParsedProviderUsage := (ProviderUsageParser.fresh.push P bytes).finish P

/-! ## Chunks -/

theorem utf16_append (s t : List Char) : utf16 (s ++ t) = utf16 s ++ utf16 t := List.flatMap_append

theorem keepJson_length {buffer : Text} (more : Text) (h : buffer.length ≤ jsonLimit) :
    (keepJson buffer more).length ≤ jsonLimit := by
  unfold keepJson
  split
  · rw [List.length_append, List.length_take]
    omega
  · exact h

theorem keepJson_eq_take {buffer : Text} (more : Text) (h : buffer.length ≤ jsonLimit) :
    keepJson buffer more = (buffer ++ more).take jsonLimit := by
  unfold keepJson
  split
  · rw [List.take_append, List.take_of_length_le h]
  · have hlength : buffer.length = jsonLimit := by omega
    rw [← hlength, List.take_left]

theorem keepJson_append {buffer : Text} (s t : Text) (h : buffer.length ≤ jsonLimit) :
    keepJson (keepJson buffer s) t = keepJson buffer (s ++ t) := by
  rw [keepJson_eq_take t (keepJson_length s h), keepJson_eq_take s h, keepJson_eq_take (s ++ t) h,
    ← List.append_assoc]
  by_cases hlength : (buffer ++ s).length ≤ jsonLimit
  · rw [List.take_of_length_le hlength]
  · have hlimit : jsonLimit ≤ (buffer ++ s).length := by omega
    rw [List.take_append_of_le_length (by rw [List.length_take]; omega), List.take_take, Nat.min_self,
      List.take_append_of_le_length hlimit]

/-- A parser between two chunks: no whole line waits, and the copy of the reply is within its limit. -/
structure Between (p : ProviderUsageParser) : Prop where
  line : lineEnds.cut p.lineBuffer = none
  json : p.jsonBuffer.length ≤ jsonLimit

variable {P} {p : ProviderUsageParser}

theorem between_fresh : Between .fresh := ⟨rfl,Nat.zero_le _⟩

theorem Between.push (h : Between p) (chunk : List UInt8) : Between (p.push P chunk) :=
  ⟨cut_rest lineEnds _,keepJson_length _ h.json⟩

/-- Two chunks in a row are read as their concatenation. -/
theorem push_push (h : Between p) (xs ys : List UInt8) : (p.push P xs).push P ys = p.push P (xs ++ ys) := by
  simp only [ProviderUsageParser.push, push_append, utf16_append, keepJson_append _ _ h.json]
  rw [← List.append_assoc, pieces_append lineEnds (p.lineBuffer ++ _), List.foldl_append]

theorem push_empty (h : Between p) : p.push P [] = p := by
  have hline := pieces_of_cut_none lineEnds h.line
  have hjson : keepJson p.jsonBuffer [] = p.jsonBuffer := by
    rw [keepJson_eq_take [] h.json, List.append_nil, List.take_of_length_le h.json]
  simp only [ProviderUsageParser.push, push_nil, utf16, List.flatMap_nil, List.append_nil, hline, hjson, List.foldl_nil]

/-- Where a reply is cut does not show. -/
theorem pushAll_eq_push (h : Between p) (chunks : List (List UInt8)) :
    chunks.foldl (ProviderUsageParser.push P) p = p.push P chunks.flatten := by
  induction chunks generalizing p with
  | nil => rw [List.foldl_nil, List.flatten_nil, push_empty h]
  | cons chunk chunks ih => rw [List.foldl_cons, ih (h.push chunk), push_push h, List.flatten_cons]

theorem finish_pushAll (chunks : List (List UInt8)) :
    (chunks.foldl (ProviderUsageParser.push P) .fresh).finish P = usageOf P chunks.flatten := by
  rw [pushAll_eq_push between_fresh, usageOf]

end HermesEnterprise.Providers
