import HermesEnterprise.Foundation.CanonicalJson
import HermesEnterprise.Recovery.Safety

/-! # The arguments of a paid call

Every paid call goes to a fixed address with arguments that the stored rows determine. A creator
search also needs a user turn that asks for it.
-/
namespace HermesEnterprise.AgentCash
open Foundation.CanonicalJson Approvals

/-- A property, as `value[name]` reads it. -/
def property (name : String) : Json → Json
  | .object fields => ((fields.find? fun f => f.1 = name).map Prod.snd).getD .undefined
  | _ => .undefined

def asString : Json → Option String
  | .string s => some s
  | _ => none

def natural (n : ℕ) : Json := .number (toString n)

def strings (items : List String) : Json := .array (items.map .string)

section People

inductive Source
  | github | agentcashPeople | agentcashCreators
  deriving DecidableEq, Repr

def Source.text : Source → String
  | github => "github"
  | agentcashPeople => "agentcash_people"
  | agentcashCreators => "agentcash_creators"

structure PeopleSearch where
  currentPositionSeniorityLevel : List String
  personSkills : List String
  currentPositionTitles : List String
  personLocations : List String
  offset : ℕ
  searchAfter : Option String
  deriving DecidableEq, Repr

/-- What a configuration may discover from. -/
inductive ConfigSource
  | github | agentcashPeople
  deriving DecidableEq, Repr

def ConfigSource.source : ConfigSource → Source
  | github => .github
  | agentcashPeople => .agentcashPeople

structure PartnerAgentConfig where
  source : ConfigSource
  minimumPriority : ℕ
  maxCandidates : ℕ
  maxApiRequests : ℕ
  peopleSearch : Option PeopleSearch
  deriving DecidableEq, Repr

def peopleSearchUrl : String := "https://stableenrich.dev/api/fullenrich/people-search"

/-- A list is only sent when it names something. -/
def named (name : String) (items : List String) : List (String × Json) :=
  if items.isEmpty then [] else [(name,strings items)]

/-- Without a people-search policy there are no arguments. -/
def agentCashPeopleSearchArguments (config : PartnerAgentConfig) : Option Json :=
  match config.source, config.peopleSearch with
  | .agentcashPeople, some policy =>
    let position := match policy.searchAfter with
      | some after => if after.isEmpty then ("offset",natural policy.offset) else ("search_after",.string after)
      | none => ("offset",natural policy.offset)
    let body := named "current_position_seniority_level" policy.currentPositionSeniorityLevel ++
      named "person_skills" policy.personSkills ++
      named "current_position_titles" policy.currentPositionTitles ++
      named "person_locations" policy.personLocations ++
      [("excludeFields",strings ["educations","languages"]),("include_employment_history",.bool false),
        ("verbose",.bool false),("limit",natural config.maxCandidates),position]
    some (.object [("url",.string peopleSearchUrl),("method",.string "POST"),("maxAmount",.number "0.15"),
      ("body",.object body)])
  | _, _ => none

end People

section Creators

inductive CreatorKind
  | linkedinYoutube | x
  deriving DecidableEq, Repr

def creatorSearchArguments : Json := .object [("url",.string "https://stableenrich.dev/api/exa/search"),
  ("method",.string "POST"),("maxAmount",.number "0.01"),("body",.object
    [("query",.string "\"Hermes Agent\" \"Nous Research\" consultant creator tutorial implementation"),
      ("includeDomains",strings ["linkedin.com","www.linkedin.com","youtube.com","www.youtube.com"]),
      ("numResults",natural 10),("type",.string "auto"),("contents",.object
        [("summary",.object [("query",.string "Identify the person or channel and concise public evidence that they teach, implement, advise on, or consult about Nous Research Hermes Agent.")]),
          ("highlights",.object [("query",.string "Hermes Agent consulting implementation tutorial"),("maxCharacters",natural 600)]),
          ("text",.object [("maxCharacters",natural 1500),("verbosity",.string "compact"),
            ("includeSections",strings ["body","metadata"])]),
          ("livecrawl",.string "fallback"),("maxAgeHours",natural 72),("extras",.object [("links",natural 10)])])])]

def xCreatorSearchArguments : Json := .object
  [("url",.string "https://fetcher.sh/api/twitter/search?query=%22Hermes%20Agent%22&sort=Top"),
    ("method",.string "GET"),("maxAmount",.number "0.005")]

def CreatorKind.arguments : CreatorKind → Json
  | linkedinYoutube => creatorSearchArguments
  | x => xCreatorSearchArguments

/-- The kind of search that these are the arguments of. -/
def creatorSearchSpec (arguments : Json) : Option CreatorKind :=
  if canonical arguments = canonical creatorSearchArguments then some .linkedinYoutube
  else if canonical arguments = canonical xCreatorSearchArguments then some .x
  else none

def creatorRunKey (runtimeRunId : String) : CreatorKind → String
  | .linkedinYoutube => "creator:" ++ runtimeRunId
  | .x => "creator:x:" ++ runtimeRunId

/-- Letters that differ from an ASCII one only by case, as `/iu` compares them. -/
def foldCase (c : Char) : Char :=
  if c = 'ſ' then 's' else if c = 'K' then 'k' else c.toLower

def isWordChar (c : Char) : Bool := c.isAlphanum || c = '_' || c = 'ſ' || c = 'K'

/-- `\s`. -/
def isSpace (c : Char) : Bool :=
  let n := c.toNat
  (9 ≤ n && n ≤ 13) || n ∈ [0x20,0xa0,0x1680,0x2028,0x2029,0x202f,0x205f,0x3000,0xfeff] || (0x2000 ≤ n && n ≤ 0x200a)

/-- What follows a word, when the text begins with it. -/
def afterLiteral (word : String) (s : List Char) : Option (List Char) :=
  let n := word.toList.length
  if (s.take n).map foldCase = word.toList then some (s.drop n) else none

/-- `look\s*up`. -/
def afterLookUp (s : List Char) : Option (List Char) :=
  (afterLiteral "look" s).bind fun rest => afterLiteral "up" (rest.dropWhile isSpace)

/-- Whether one of the alternatives, each made of word characters at its ends, is a whole word of the
text. `behind` tells whether a word character stands before it. -/
def hasWordFrom (alternatives : List (List Char → Option (List Char))) : Bool → List Char → Bool
  | _, [] => false
  | behind, c :: rest =>
    (behind ≠ isWordChar c && alternatives.any fun alternative =>
      (alternative (c :: rest)).any fun left => !left.head?.any isWordChar) ||
    hasWordFrom alternatives (isWordChar c) rest

def hasWord (alternatives : List (List Char → Option (List Char))) (value : String) : Bool :=
  hasWordFrom alternatives false value.toList

def actionIntent : List (List Char → Option (List Char)) :=
  afterLookUp :: ["search","find","discover","identify","run","test"].map afterLiteral

def creatorIntent : List (List Char → Option (List Char)) :=
  ["consult","consultant","consultants","consulting","influenc","influencer","influencers","creator","creators",
    "teacher","teachers","tutorial","tutorials","implement","implementer","implementers","implementation",
    "implementations"].map afterLiteral

/-- The searches that the stored text of a user turn asks for. -/
def requestedCreatorSearchKinds (prompt : Option String) : List CreatorKind :=
  let value := prompt.getD ""
  if !hasWord [afterLiteral "hermes"] value || !hasWord actionIntent value || !hasWord creatorIntent value then []
  else
    (if hasWord (["linkedin","youtube"].map afterLiteral) value then [.linkedinYoutube] else []) ++
      (if hasWord (["x","twitter"].map afterLiteral) value then [.x] else [])

example : requestedCreatorSearchKinds (some "Look up Hermes creators on X and YouTube") = [.linkedinYoutube,.x] := by
  decide

end Creators

section Contact

inductive ContactCallKind
  | enrichment | verification | verificationPoll
  deriving DecidableEq, Repr

def contactEnrichUrl : String := "https://stableenrich.dev/api/minerva/enrich"

def emailVerifyUrl : String := "https://stableenrich.dev/api/hunter/email-verifier"

def agentCashContactEnrichmentArguments (candidateId linkedInUrl : String) : Json := .object
  [("url",.string contactEnrichUrl),("method",.string "POST"),("maxAmount",.number "0.05"),("body",.object
    [("records",.array [.object [("record_id",.string candidateId),("linkedin_url",.string linkedInUrl)]]),
      ("return_fields",strings ["full_name","linkedin_url","professional_emails","phones","twitter_url","facebook_url"])])]

/-- Stored addresses are ASCII. -/
def agentCashEmailVerificationArguments (email : String) : Json := .object
  [("url",.string emailVerifyUrl),("method",.string "POST"),("maxAmount",.number "0.03"),
    ("body",.object [("email",.string email.toLower)])]

def agentCashEmailVerificationPollArguments (pollUrl : String) : Json := .object
  [("url",.string pollUrl),("method",.string "GET"),("maxAmount",.number "0.03")]

def contactKind (arguments : Json) : Option ContactCallKind :=
  let url := asString (property "url" arguments)
  let method := asString (property "method" arguments)
  if url = some contactEnrichUrl ∧ method = some "POST" then some .enrichment
  else if url = some emailVerifyUrl ∧ method = some "POST" then some .verification
  else if method = some "GET" ∧ url.any (fun u => (emailVerifyUrl ++ "/jobs/").toList.isPrefixOf u.toList) = true then
    some .verificationPoll
  else none

/-- `/^[0-9a-f]{8}-[0-9a-f]{4}-[0-9a-f]{4}-[0-9a-f]{4}-[0-9a-f]{12}$/i` -/
def isUuid (s : String) : Bool :=
  let groups := s.toList.splitOn '-'
  groups.map List.length = [8,4,4,4,12] && groups.flatten.all fun c =>
    c.isDigit || ('a' ≤ c.toLower && c.toLower ≤ 'f')

def candidateIdFromEnrichmentArguments (arguments : Json) : Option String :=
  match property "records" (property "body" arguments) with
  | .array (first :: _) => (asString (property "record_id" first)).filter isUuid
  | _ => none

end Contact
end HermesEnterprise.AgentCash
