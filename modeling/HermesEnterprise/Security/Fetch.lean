import HermesEnterprise.Security.Addresses

/-! # Fetching one address of the web

Every hop is vetted from the top, and its host is resolved and checked before the request is sent. What the loop
asks of the network is a list of effects, in order.
-/
namespace HermesEnterprise.Security
open HermesEnterprise.Inbound

def fetchUrlMaxBytes : ℕ := 2 * 1024 * 1024

def fetchUrlTimeoutMs : ℕ := 10000

def fetchUrlMaxRedirects : ℕ := 3

def fetchUrlTextMaxChars : ℕ := 8 * 1024

def fetchUrlTruncationMarker : Text := text "\n[truncated: the page exceeded 8 KB of text]"

def fetchUrlMethods : List Text := ["GET","HEAD"].map text

def alwaysDeniedHosts : List Text :=
  ["neon.tech","neon.build","r2.cloudflarestorage.com","r2.dev","api.anthropic.com","api.openai.com",
    "api.deepseek.com","portal.nousresearch.com","gateway.ai.cloudflare.com","metadata.google.internal",
    "metadata.goog","instance-data","localhost","localhost.localdomain"].map text

inductive FetchRefusal
  | badUrl | methodNotAllowed | schemeNotAllowed | portNotAllowed | credentialsInUrl | deniedHost | notAllowlisted
  | dnsFailed | privateAddress | tooManyRedirects | unsupportedContentType | httpError | timeout | fetchFailed
  deriving DecidableEq, Repr

structure FetchHop where
  url : Text
  host : Text
  addresses : List Text
  status : Option ℕ
  deriving DecidableEq, Repr

structure FetchUrlOk where
  url : Text
  finalUrl : Text
  status : ℕ
  contentType : Option Text
  title : Option Text
  text : Text
  truncated : Bool
  bytes : ℕ
  hops : List FetchHop
  retrievedAt : Text
  deriving DecidableEq, Repr

structure FetchUrlRefused where
  reason : FetchRefusal
  error : Text
  url : Text
  hops : List FetchHop
  deriving DecidableEq, Repr

abbrev FetchUrlResult := Except FetchUrlRefused FetchUrlOk

structure FetchUrlOptions where
  allowlist : List Text
  denyHosts : List Text := []
  maxBytes : ℕ := fetchUrlMaxBytes
  timeoutMs : ℕ := fetchUrlTimeoutMs
  maxRedirects : ℕ := fetchUrlMaxRedirects

/-- A parsed `URL`. -/
structure WebUrl where
  href : Text
  protocol : Text
  username : Text
  password : Text
  port : Text
  hostname : Text
  origin : Text
  pathname : Text
  deriving DecidableEq, Repr

structure Response where
  status : ℕ
  location : Option Text
  contentType : Option Text
  /-- What reading the body gives, chunk by chunk. -/
  body : List (Except Text (List UInt8))

/-- What the platform computes: addresses with and without a base, the case of a string, and texts from bytes. -/
structure Web where
  parse : Text → Option WebUrl
  parseAgainst : Text → WebUrl → Option WebUrl
  toUpperCase : Text → Text
  toLowerCase : Text → Text
  decodeBytes : List UInt8 → Text
  htmlToText : Text → Text
  htmlTitle : Text → Option Text

/-- What the network answers on each hop. A request may fail, by the deadline or not. -/
structure Answers where
  resolve : ℕ → Text → Except Text (List Text)
  respond : ℕ → Text → Except (Bool × Text) Response
  now : Text

inductive Effect
  | resolve (host : Text) (answer : Except Text (List Text))
  | send (url : WebUrl) (method : Text) (redirect : Text)

section Vetting
variable (web : Web)

/-- Suffix match: `docs.example.com` matches an entry of `example.com`. -/
def hostMatches (hostname : Text) (entries : List Text) : Bool :=
  let withoutDot := fun s : Text => if s.getLast? = some (unit '.') then s.dropLast else s
  let host := withoutDot (web.toLowerCase hostname)
  entries.any fun raw =>
    let entry := withoutDot (stripPrefix (text "*.") (web.toLowerCase (trim raw)))
    !entry.isEmpty && (host = entry || (text "." ++ entry).isSuffixOf host)

/-- Every rule that needs no network. -/
def vet (raw : Text) (allowlist denied : List Text) : Except FetchUrlRefused WebUrl :=
  match web.parse raw with
  | none => .error ⟨.badUrl,text "\"" ++ raw.take 200 ++ text "\" is not a URL",raw,[]⟩
  | some url =>
    if url.protocol ≠ text "https:" ∧ url.protocol ≠ text "http:" then
      .error ⟨.schemeNotAllowed,text "only http and https are fetchable, not " ++ url.protocol,url.href,[]⟩
    else if !url.username.isEmpty || !url.password.isEmpty then
      .error ⟨.credentialsInUrl,text "a URL carrying credentials is never fetched",url.origin ++ url.pathname,[]⟩
    else if !url.port.isEmpty && decide (url.port ≠ text "80") && decide (url.port ≠ text "443") then
      .error ⟨.portNotAllowed,text "only ports 80 and 443 are fetchable, not " ++ url.port,url.href,[]⟩
    else if hostMatches web url.hostname denied then
      .error ⟨.deniedHost,url.hostname ++ text " is on the permanent deny list and cannot be allowlisted",url.href,[]⟩
    else if allowlist.isEmpty then
      .error ⟨.notAllowlisted,text ("this workspace has no fetch allowlist; an Admin adds domains in Settings before " ++
        "the agent can read the web"),url.href,[]⟩
    else if !hostMatches web url.hostname allowlist then
      .error ⟨.notAllowlisted,url.hostname ++ text " is not on this workspace's fetch allowlist",url.href,[]⟩
    else .ok url

/-- The first address that is refused, with its range. -/
def refusedAddress (addresses : List Text) : Option (Text × Text) :=
  (addresses.find? fun address => !(checkAddress address).allowed).map fun address =>
    (address,(checkAddress address).range.getD (text "a refused range"))

/-- Resolve and check one hop's host: what is asked, and its addresses or the refusal. -/
def vetHost (answers : Answers) (hop : ℕ) (url : WebUrl) (hops : List FetchHop) :
    List Effect × Except FetchUrlRefused (List Text) :=
  if isIpLiteral url.hostname then
    let verdict := checkAddress (withoutBrackets url.hostname)
    if !verdict.allowed then
      ([],.error ⟨.privateAddress,url.hostname ++ text " is in " ++ verdict.range.getD (text "a refused range"),
        url.href,hops⟩)
    else ([],.ok [url.hostname])
  else
    let answer := answers.resolve hop url.hostname
    ([.resolve url.hostname answer],
      match answer with
      | .error message =>
        .error ⟨.dnsFailed,text "could not resolve " ++ url.hostname ++ text ": " ++ message,url.href,hops⟩
      | .ok addresses =>
        if addresses.isEmpty then
          .error ⟨.dnsFailed,url.hostname ++ text " resolved to no addresses",url.href,hops⟩
        else
          match refusedAddress addresses with
          | some (address,range) =>
            .error ⟨.privateAddress,url.hostname ++ text " resolves to " ++ address ++ text ", which is in " ++ range,
              url.href,hops⟩
          | none => .ok addresses)

end Vetting

section Reading

/-- The bytes that are read, and whether the cap stopped it. -/
def readCapped (maxBytes : ℕ) (read : List UInt8) : List (Except Text (List UInt8)) → Except Text (List UInt8 × Bool)
  | [] => .ok (read,false)
  | .error message :: _ => .error message
  | .ok value :: rest =>
    let remaining := maxBytes - read.length
    if remaining ≤ value.length then .ok (read ++ value.take remaining,true)
    else readCapped maxBytes (read ++ value) rest

inductive TextKind
  | html | text | unsupported
  deriving DecidableEq, Repr

def textKindOf (web : Web) (contentType : Option Text) : TextKind :=
  let type := web.toLowerCase (trim ((contentType.getD []).takeWhile (· ≠ unit ';')))
  if type = text "text/html" ∨ type = text "application/xhtml+xml" then .html
  else if (text "text/").isPrefixOf type then .text
  else if type = text "application/json" ∨ type = text "application/xml" ∨
      (text "+json").isSuffixOf type = true ∨ (text "+xml").isSuffixOf type = true then .text
  else if type.isEmpty then .text
  else .unsupported

/-- A text for the model, cut with a marker when it is too long. -/
def reducedText (reduced : Text) : Text :=
  if fetchUrlTextMaxChars < reduced.length then
    reduced.take (fetchUrlTextMaxChars - fetchUrlTruncationMarker.length) ++ fetchUrlTruncationMarker
  else reduced

/-- The result of a response that is no redirect. A body that cannot be read makes the call throw. -/
def readResponse (web : Web) (options : FetchUrlOptions) (now rawUrl method : Text) (current : WebUrl)
    (response : Response) (hops : List FetchHop) : Except Text FetchUrlResult :=
  if 400 ≤ response.status then
    .ok (.error ⟨.httpError,current.hostname ++ text " answered " ++ text (toString response.status),current.href,hops⟩)
  else
    let kind := textKindOf web response.contentType
    if kind = .unsupported then
      .ok (.error ⟨.unsupportedContentType,current.hostname ++ text " answered " ++
        response.contentType.getD (text "an unknown type") ++ text ("; this tool reads text and HTML. Upload the " ++
        "file instead, so it is extracted and attributed."),current.href,hops⟩)
    else if method = text "HEAD" then
      .ok (.ok ⟨rawUrl,current.href,response.status,response.contentType,none,[],false,0,hops,now⟩)
    else
      match readCapped options.maxBytes [] response.body with
      | .error message => .error message
      | .ok (bytes,capped) =>
        let body := web.decodeBytes bytes
        let reduced := if kind = .html then web.htmlToText body else trim body
        .ok (.ok ⟨rawUrl,current.href,response.status,response.contentType,
          if kind = .html then web.htmlTitle body else none,reducedText reduced,
          capped || decide (fetchUrlTextMaxChars < reduced.length),bytes.length,hops,now⟩)

end Reading

section Hops
variable (web : Web) (options : FetchUrlOptions) (answers : Answers) (rawUrl method : Text)

def deniedHosts : List Text := alwaysDeniedHosts ++ options.denyHosts

/-- Where a redirect leads: to a vetted address, or to a refusal. -/
def redirected (left : ℕ) (current : WebUrl) (response : Response) (hops : List FetchHop) :
    Except FetchUrlRefused WebUrl :=
  match response.location.filter fun location => !location.isEmpty with
  | none =>
    .error ⟨.httpError,current.hostname ++ text " answered " ++ text (toString response.status) ++
      text " with no Location",current.href,hops⟩
  | some location =>
    if left = 0 then
      .error ⟨.tooManyRedirects,text "more than " ++ text (toString options.maxRedirects) ++
        text " redirects starting at " ++ rawUrl,current.href,hops⟩
    else
      match web.parseAgainst location current with
      | none =>
        .error ⟨.badUrl,current.hostname ++ text " redirected to something that is not a URL",current.href,hops⟩
      | some next =>
        match vet web next.href options.allowlist (deniedHosts options) with
        | .error refused => .error { refused with hops := hops }
        | .ok url => .ok url

/-- The hops from here on, `left` of them and this one. -/
def fetchHops : ℕ → ℕ → WebUrl → List FetchHop → List Effect × Except Text FetchUrlResult
  | 0, _, _, hops =>
    ([],.ok (.error ⟨.tooManyRedirects,text "more than " ++ text (toString options.maxRedirects) ++
      text " redirects starting at " ++ rawUrl,rawUrl,hops⟩))
  | left + 1, hop, current, hops =>
    match vetHost answers hop current hops with
    | (asked,.error refused) => (asked,.ok (.error refused))
    | (asked,.ok addresses) =>
      let asked := asked ++ [.send current method (text "manual")]
      match answers.respond hop current.href with
      | .error (aborted,message) =>
        let hops := hops ++ [⟨current.href,current.hostname,addresses,none⟩]
        (asked,.ok (.error ⟨if aborted then .timeout else .fetchFailed,
          if aborted then text "fetching " ++ current.hostname ++ text " took longer than " ++
            text (toString options.timeoutMs) ++ text " ms"
          else text "fetching " ++ current.hostname ++ text " failed: " ++ message,current.href,hops⟩))
      | .ok response =>
        let hops := hops ++ [⟨current.href,current.hostname,addresses,some response.status⟩]
        if 300 ≤ response.status ∧ response.status < 400 then
          match redirected web options rawUrl left current response hops with
          | .error refused => (asked,.ok (.error refused))
          | .ok url =>
            let later := fetchHops left (hop + 1) url hops
            (asked ++ later.1,later.2)
        else (asked,readResponse web options answers.now rawUrl method current response hops)

end Hops

/-- Fetch one address: what is asked of the network, and the result. -/
def fetchUrl (web : Web) (answers : Answers) (rawUrl method : Text) (options : FetchUrlOptions) :
    List Effect × Except Text FetchUrlResult :=
  let upper := web.toUpperCase method
  if upper ∉ fetchUrlMethods then
    ([],.ok (.error ⟨.methodNotAllowed,text "only GET and HEAD are allowed, not " ++ method,rawUrl,[]⟩))
  else
    match vet web rawUrl options.allowlist (deniedHosts options) with
    | .error refused => ([],.ok (.error refused))
    | .ok url => fetchHops web options answers rawUrl upper (options.maxRedirects + 1) 0 url []

end HermesEnterprise.Security
