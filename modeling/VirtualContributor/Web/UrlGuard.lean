import VirtualContributor.Lib.Containers
import VirtualContributor.Lib.PythonText
import VirtualContributor.Lib.RelyGuarantee
import VirtualContributor.Web.Exception

/-!
# The outbound fetch guard

`plugins/url_guard.py`: destination checks and the redirect-aware fetch.

`UrlLib` collects the standard library functions that the guard is built on:
URL splitting, the classification of one address and the two Unicode case
mappings.  The error of one of them is the text of its `ValueError`.

The guard talks to the resolver, to the callbacks of its caller and to the
HTTP client.  `fetchSignature` lists these calls, and reading the bounded body
of a response is one of them.
-/

namespace VirtualContributor.Web

open Lib Program

/-! ## The standard library -/

/-- The result of `urlsplit`.  Reading `hostname` or `port` may raise. -/
structure SplitResult where
  scheme : String
  netloc : String
  path : String
  query : String
  fragment : String
  hostname : Except String (Option String)
  port : Except String (Option Nat)

/-- The address of a site that has one. -/
theorem siteAddress_ne : ∀ _ : Unit, "93.184.216.34" ≠ "" := fun _ => by decide

theorem asciiLower_ascii : ∀ text, (∀ c ∈ text.toList, c.toNat < 128) →
    asciiLower text = asciiLower text := fun _ _ => rfl

structure UrlLib where
  urlsplit : String → Except String SplitResult
  /-- `urlunsplit((scheme, netloc, path, query, fragment))`. -/
  urlunsplit : String → String → String → String → String → String
  urljoin : String → String → Except String String
  lower : String → String
  casefold : String → String
  casefold_ascii : ∀ text, (∀ c ∈ text.toList, c.toNat < 128) → casefold text = asciiLower text
  Address : Type
  /-- `ipaddress.ip_address(value)`. -/
  ipAddress : String → Option Address
  /-- `ipaddress.ip_address(socket.inet_aton(value))`. -/
  inetAton : String → Option Address
  ipv4Mapped : Address → Option Address
  /-- `str(address)`. -/
  addressText : Address → String
  addressText_ne : ∀ address, addressText address ≠ ""
  isPrivate : Address → Bool
  isLoopback : Address → Bool
  isLinkLocal : Address → Bool
  isReserved : Address → Bool
  isUnspecified : Address → Bool
  isMulticast : Address → Bool
  isGlobal : Address → Bool

def ALLOWED_SCHEMES : List String := ["http", "https"]
def MAX_REDIRECT_HOPS : Nat := 5
def REDIRECT_STATUSES : List Nat := [301, 302, 303, 307, 308]
def SUPPORTED_ACCEPT_ENCODINGS : String := "gzip, deflate"
def CREDENTIAL_HEADERS : List String := ["authorization", "proxy-authorization"]
def GUARD_OWNED_HEADERS : List String := CREDENTIAL_HEADERS ++ ["accept-encoding", "host"]

/-- Closed set of reasons an outbound fetch may be refused. -/
inductive RefusalCategory where
  | scheme
  | destination
  | redirect
  | hopLimit
  | resolution
  | size
  | contentType
  | transport
deriving DecidableEq

/-! ## Origins -/

section Origins

variable (L : UrlLib)

/-- `(urlsplit(url).hostname or "").lower()`. -/
def hostOf (url : String) : Except String String := do
  let parts ← L.urlsplit url
  let hostname ← parts.hostname
  return L.lower (hostname.getD "")

/-- A lowercased hostname with a port stripped, or the empty string. -/
def normaliseHost (value : Option String) : String :=
  match value with
  | none => ""
  | some value =>
    if value = "" then ""
    else
      let raw := strip value
      match L.ipAddress raw with
      | some address => L.lower (L.addressText address)
      | none =>
        match hostOf L (if contains raw "://" then raw else "//" ++ raw) with
        | .ok host => host
        | .error _ => ""

/-- Match the configured deployment by host equality. -/
def isDeploymentHost (host deploymentHost : Option String) : Bool :=
  let candidate := normaliseHost L host
  let configured := normaliseHost L deploymentHost
  candidate ≠ "" && configured ≠ "" && candidate = configured

/-- A comparable HTTP(S) origin, with its effective port. -/
def normaliseOrigin (value : Option String) : Option (String × String × Nat) := do
  let url ← value.filter (· ≠ "")
  let parts ← (L.urlsplit url).toOption
  let scheme := L.lower parts.scheme
  let host ← (hostOf L url).toOption
  if scheme ∉ ALLOWED_SCHEMES || host = "" then none
  else
    let port ← parts.port.toOption
    return (scheme, host, port.getD (if scheme = "https" then 443 else 80))

/-- Match the deployment by exact scheme, host and effective port. -/
def isDeploymentUrl (url deploymentUrl : Option String) : Bool :=
  let candidate := normaliseOrigin L url
  candidate.isSome && candidate = normaliseOrigin L deploymentUrl

/-- Whether an authenticated header is safe for this hop. -/
def shouldAttachCredentials (target : String) (deploymentUrl : Option String) : Bool :=
  isDeploymentUrl L (some target) deploymentUrl

/-! ## Addresses -/

/-- A literal address, in one of the spellings that HTTP stacks accept.  A
mapped IPv4 address stands for itself. -/
def literalAddress (value : String) : Option L.Address :=
  (L.ipAddress value <|> L.inetAton value).map fun address =>
    (L.ipv4Mapped address).getD address

def isDeniedAddress (address : L.Address) : Bool :=
  L.isPrivate address || L.isLoopback address || L.isLinkLocal address ||
    L.isReserved address || L.isUnspecified address || L.isMulticast address ||
    !L.isGlobal address

end Origins

/-! ## Calls of the guard -/

/-- The validation outcome for one absolute URL. -/
structure FetchDecision where
  allowed : Bool
  reason : Option RefusalCategory
  address : Option String
  host : String
  isDeploymentHost : Bool

/-- A prepared request, as it is handed to the client. -/
structure Request where
  url : String
  headers : OrderedDict String String
  sniHostname : String

/-- The head of a response.  Header names are lower case. -/
structure Response where
  statusCode : Nat
  header : String → Option String

abbrev Body := List UInt8

inductive FetchCall where
  | resolve (host : String)
  | headersForRequest (target : String) (decision : FetchDecision)
  | credentialToken
  | send (request : Request)
  | readBody (response : Response) (contentType : String)

def FetchCall.Answer : FetchCall → Type
  | resolve _ => Except Exc (List String)
  | headersForRequest _ _ => Except Exc (List (String × String))
  | credentialToken => Except Exc (Option String)
  | send _ => Except Exc Response
  | readBody _ _ => Except Exc (Option Body × Option RefusalCategory)

abbrev fetchSignature : Signature where
  Call := FetchCall
  Answer := FetchCall.Answer

/-- The events of a fetch, in order. -/
abbrev Log := List (Event fetchSignature)

/-- Programs of the guard. -/
abbrev Fetch := Program fetchSignature

/-- `resolve_host` under its timeout. -/
def resolveHost (host : String) : Fetch (Except Exc (List String)) :=
  request (S := fetchSignature) (.resolve host)

def headersForRequest (target : String) (decision : FetchDecision) :
    Fetch (Except Exc (List (String × String))) :=
  request (S := fetchSignature) (.headersForRequest target decision)

def credentialTokenProvider : Fetch (Except Exc (Option String)) :=
  request (S := fetchSignature) .credentialToken

def streamRequest (prepared : Request) : Fetch (Except Exc Response) :=
  request (S := fetchSignature) (.send prepared)

/-- `_read_bounded_body`. -/
def readBoundedBody (response : Response) (contentType : String) :
    Fetch (Except Exc (Option Body × Option RefusalCategory)) :=
  request (S := fetchSignature) (.readBody response contentType)

/-! ## `check_destination` -/

/-- The deployment a caller names: by host or by URL. -/
structure Deployment where
  host : Option String := none
  url : Option String := none

section Check

variable (L : UrlLib) (deployment : Deployment)

/-- Whether a target is the deployment. -/
def isDeploymentTarget (host url : String) : Bool :=
  if deployment.url.isSome then isDeploymentUrl L (some url) deployment.url
  else isDeploymentHost L (some host) deployment.host

def refusal (url : String) (reason : RefusalCategory) (host : String := "") : FetchDecision where
  allowed := false
  reason := some reason
  address := none
  host := host
  isDeploymentHost := isDeploymentTarget L deployment host url

/-- Judge the addresses of one answer of the resolver. -/
def checkAnswer (deploymentTarget : Bool) : List String → Except RefusalCategory (List L.Address)
  | [] => .ok []
  | value :: rest =>
    match literalAddress L value with
    | none => .error .resolution
    | some address =>
      if !deploymentTarget && isDeniedAddress L address then .error .destination
      else (checkAnswer deploymentTarget rest).map (address :: ·)

/-- The decision on an answer of the resolver. -/
def decideAnswer (url host : String) (answer : Except Exc (List String)) : FetchDecision :=
  let deploymentTarget := isDeploymentTarget L deployment host url
  match answer with
  | .error _ => refusal L deployment url .resolution host
  | .ok resolved =>
    match checkAnswer L deploymentTarget resolved with
    | .error reason => refusal L deployment url reason host
    | .ok [] => refusal L deployment url .resolution host
    | .ok (address :: _) =>
      ⟨true, none, some (L.addressText address), host, deploymentTarget⟩

/-- The decision on a host that is a literal address. -/
def decideLiteral (url host : String) (literal : L.Address) : FetchDecision :=
  let deploymentTarget := isDeploymentTarget L deployment host url
  if !deploymentTarget && isDeniedAddress L literal then
    refusal L deployment url .destination host
  else ⟨true, none, some (L.addressText literal), host, deploymentTarget⟩

/-- Classify one candidate destination. -/
def checkDestination (url : String) : Fetch FetchDecision :=
  match L.urlsplit url, hostOf L url with
  | .ok parts, .ok host =>
    if L.lower parts.scheme ∉ ALLOWED_SCHEMES then
      pure (refusal L deployment url .scheme host)
    else if host = "" then pure (refusal L deployment url .destination)
    else
      match literalAddress L host with
      | some literal => pure (decideLiteral L deployment url host literal)
      | none => do return decideAnswer L deployment url host (← resolveHost host)
  | _, _ => pure (refusal L deployment url .destination)

end Check

/-! ## `guarded_fetch` -/

/-- The outcome of a redirect-aware, pinned outbound HTTP fetch. -/
structure GuardedFetchResult where
  body : Option Body
  contentType : String
  url : String
  statusCode : Option Nat
  reason : Option RefusalCategory
  host : String
  hops : Nat
  errorType : Option String := none

/-- The keyword arguments of `guarded_fetch`.  The two flags say whether the
callbacks are given. -/
structure FetchOptions where
  maxBytes : Nat
  deploymentUrl : Option String := none
  credentialToken : Option String := none
  hasTokenProvider : Bool := false
  hasHeadersForRequest : Bool := false
  requestHeaders : List (String × String) := []
  redirectPolicy : Option (String → Except Exc Bool) := none

section Guard

variable (L : UrlLib) (opts : FetchOptions)

/-- The `ValueError` of a standard library function. -/
def valueError (text : String) : Exc := { typeName := "ValueError", text := text }

/-- The connect address as a URL authority. -/
def authority (address : String) (port : Option Nat) : String :=
  let addressHost := if contains address ":" then "[" ++ address ++ "]" else address
  match port with
  | none => addressHost
  | some port => s!"{addressHost}:{port}"

/-- Replace a URL authority with the already-validated connect address. -/
def pinnedTarget (target : String) (address : Option String) : Except String String :=
  match address.filter (· ≠ "") with
  | none => .ok target
  | some address => do
    let parts ← L.urlsplit target
    let port ← parts.port
    return L.urlunsplit parts.scheme (authority address port) parts.path parts.query
      parts.fragment

/-- The logical Host header for a request pinned to an address. -/
def hostHeader (target : String) : Except String String := do
  let parts ← L.urlsplit target
  let hostname ← parts.hostname
  let port ← parts.port
  return authority (hostname.getD "") port

/-- An absolute HTTP(S) redirect location, or `none`.  An error of `urljoin`
is raised. -/
def redirectTarget (response : Response) (currentTarget : String) :
    Except String (Option String) :=
  match (response.header "location").filter (· ≠ "") with
  | none => .ok none
  | some location => do
    let target ← L.urljoin currentTarget location
    match L.urlsplit target with
    | .error _ => return none
    | .ok parts =>
      if L.lower parts.scheme ∉ ALLOWED_SCHEMES then return none
      else
        match parts.hostname with
        | .error _ => return none
        | .ok hostname => return if truthy hostname then some target else none

/-- `_content_type`. -/
def contentTypeOf (response : Response) : String :=
  L.lower (strip (String.ofList
    (((response.header "content-type").getD "").toList.takeWhile (· ≠ ';'))))

def declaresOversize (response : Response) (maxBytes : Nat) : Bool :=
  match response.header "content-length" with
  | none => false
  | some declared => (pythonInt declared).any (fun n => n > (maxBytes : Int))

/-- Drop headers whose values must be controlled by the guard. -/
def callerHeaders (headers : List (String × String)) : List (String × String) :=
  headers.filter fun h => L.casefold h.1 ∉ GUARD_OWNED_HEADERS

/-- The headers of the caller, for this request and in general. -/
def collectHeaders (target : String) (decision : FetchDecision) :
    Fetch (Except Exc (OrderedDict String String)) :=
  let headers := OrderedDict.empty.setAll (callerHeaders L opts.requestHeaders)
  if opts.hasHeadersForRequest then do
    match ← headersForRequest target decision with
    | .error exc => pure (.error exc)
    | .ok more => pure (.ok (headers.setAll (callerHeaders L more)))
  else pure (.ok headers)

/-- The bearer token, from the provider if there is one. -/
def currentToken : Fetch (Except Exc (Option String)) :=
  if opts.hasTokenProvider then credentialTokenProvider else pure (.ok opts.credentialToken)

/-- The request of one hop. -/
def buildRequest (target : String) (decision : FetchDecision)
    (headers : OrderedDict String String) (token : Option String) : Except String Request := do
  let host ← hostHeader L target
  let url ← pinnedTarget L target decision.address
  let headers := (headers.set "Accept-Encoding" SUPPORTED_ACCEPT_ENCODINGS).set "Host" host
  let headers :=
    if truthy token && shouldAttachCredentials L target opts.deploymentUrl then
      headers.set "Authorization" ("Bearer " ++ token.getD "")
    else headers
  return { url := url, headers := headers, sniHostname := decision.host }

/-- What one turn of the loop comes to: a result, or the next hop with the
status and the host of this one. -/
inductive HopOutcome where
  | result (r : GuardedFetchResult)
  | redirect (next : String) (statusCode : Nat) (host : String)

/-- A result without a body. -/
def withoutBody (url : String) (statusCode : Option Nat) (reason : RefusalCategory)
    (host : String) (hops : Nat) (contentType : String := "") : GuardedFetchResult where
  body := none
  contentType := contentType
  url := url
  statusCode := statusCode
  reason := some reason
  host := host
  hops := hops

/-- The redirect branch of the response handling. -/
def followRedirect (target host : String) (hops : Nat) (response : Response) :
    Except Exc HopOutcome :=
  let refused := HopOutcome.result
    (withoutBody target (some response.statusCode) .redirect host hops)
  match redirectTarget L response target with
  | .error text => .error (valueError text)
  | .ok none => .ok refused
  | .ok (some next) =>
    match opts.redirectPolicy with
    | none => .ok (.redirect next response.statusCode host)
    | some policy =>
      match policy next with
      | .error exc => .error exc
      | .ok true => .ok (.redirect next response.statusCode host)
      | .ok false => .ok refused

/-- What the response of one hop comes to. -/
def receive (target host : String) (hops : Nat) (response : Response) :
    Fetch (Except Exc HopOutcome) :=
  if response.statusCode ∈ REDIRECT_STATUSES then
    pure (followRedirect L opts target host hops response)
  else if response.statusCode ≠ 200 then
    pure (.ok (.result (withoutBody target (some response.statusCode) .transport host hops)))
  else
    let contentType := contentTypeOf L response
    if declaresOversize response opts.maxBytes then
      pure (.ok (.result
        (withoutBody target (some response.statusCode) .size host hops contentType)))
    else do
      match ← readBoundedBody response contentType with
      | .error exc => pure (.error exc)
      | .ok (body, reason) =>
        pure (.ok (.result ⟨body, contentType, target, some response.statusCode, reason, host,
          hops, none⟩))

/-- One turn of the loop. -/
def fetchHop (target : String) (hops : Nat) : Fetch (Except Exc HopOutcome) := do
  let decision ← checkDestination L { url := opts.deploymentUrl } target
  if decision.allowed then
    match ← collectHeaders L opts target decision with
    | .error exc => pure (.error exc)
    | .ok headers =>
      match ← currentToken opts with
      | .error exc => pure (.error exc)
      | .ok token =>
        match buildRequest L opts target decision headers token with
        | .error text => pure (.error (valueError text))
        | .ok prepared =>
          match ← streamRequest prepared with
          | .error exc => pure (.error exc)
          | .ok response => receive L opts target decision.host hops response
  else
    let reason := decision.reason.getD .transport
    let reason :=
      if hops ≠ 0 && reason = .destination then RefusalCategory.redirect else reason
    pure (.ok (.result (withoutBody target none reason decision.host hops)))

/-- An exception with the target and the number of redirects it was raised
at. -/
structure Raised where
  exc : Exc
  target : String
  hops : Nat

/-- The loop.  The first argument is the number of redirects still allowed. -/
def fetchFrom : Nat → String → Fetch (Except Raised GuardedFetchResult)
  | left, target => do
    let hops := MAX_REDIRECT_HOPS - left
    match ← fetchHop L opts target hops with
    | .error exc => pure (.error ⟨exc, target, hops⟩)
    | .ok (.result r) => pure (.ok r)
    | .ok (.redirect next status host) =>
      match left with
      | 0 => pure (.ok (withoutBody next (some status) .hopLimit host hops))
      | left + 1 => fetchFrom left next

/-- Fetch an HTTP resource through per-hop validation and address pinning.
Whatever the loop raises is a transport failure. -/
def guardedFetch (url : String) : Fetch (Except Exc GuardedFetchResult) := do
  match ← fetchFrom L opts MAX_REDIRECT_HOPS url with
  | .ok r => pure (.ok r)
  | .error raised =>
    pure (.ok { withoutBody raised.target none .transport "" raised.hops with
      errorType := some raised.exc.typeName })

end Guard

end VirtualContributor.Web
