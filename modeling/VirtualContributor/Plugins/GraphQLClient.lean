import Mathlib
import VirtualContributor.Lib.TaskPool
import VirtualContributor.Lib.TextTables
import VirtualContributor.Web.Exception

/-!
# The session of the GraphQL client

`GraphQLClient` logs in at Kratos when it has no session token, and sends every
query with the token it has.  One client serves all events of a worker, and the
worker acknowledges an event early, so the calls of several tasks interleave.
The token is an attribute that the tasks share; here it is read and written by
calls of its own.

`posts_carry_issued_tokens` is about any number of tasks, and
`no_login_with_token` about a task that is alone.
-/

namespace VirtualContributor.Plugins

open Lib Program

/-! ## Calls -/

/-- The head of a response, and what `resp.json()` comes to. -/
structure HttpAnswer where
  statusCode : Nat
  body : Except Exc Json

/-- The calls of the client: its attribute `_session_token`, the two requests of
the login flow, a query, and `asyncio.sleep`. -/
inductive SessionCall where
  | readToken
  | writeToken (token : Json)
  | initFlow (url : String)
  | login (actionUrl : Json) (identifier password : String)
  | post (url authorization queryStr : String) (vars : Json)
  | sleep (delay : Rat)

def SessionCall.Answer : SessionCall → Type
  | readToken => Json
  | writeToken _ => Unit
  | initFlow _ => Except Exc HttpAnswer
  | login _ _ _ => Except Exc HttpAnswer
  | post _ _ _ _ => Except Exc HttpAnswer
  | sleep _ => Unit

abbrev sessionSignature : Signature where
  Call := SessionCall
  Answer := SessionCall.Answer

/-- Programs of the client that can raise. -/
abbrev Querying := ExceptT Exc (Program sessionSignature)

def readToken : Querying Json :=
  Program.call (S := sessionSignature) .readToken fun token => .done (.ok token)

def writeToken (token : Json) : Querying Unit :=
  Program.call (S := sessionSignature) (.writeToken token) fun _ => .done (.ok ())

/-! ## Responses -/

/-- `value[key]`. -/
def subscript (value : Json) (key : String) : Except Exc Json :=
  match value with
  | .obj fields =>
    match fields.lookup key with
    | some found => .ok found
    | none => .error { typeName := "KeyError", text := s!"'{key}'" }
  | value => .error { typeName := "TypeError", text := s!"'{value.typeName}' cannot be indexed" }

/-- `resp.raise_for_status()` and `resp.json()`. -/
def jsonOf (answer : HttpAnswer) : Except Exc Json :=
  if 200 ≤ answer.statusCode && answer.statusCode < 300 then answer.body
  else .error { typeName := "HTTPStatusError" }

/-- `flow_resp.json()["ui"]["action"]`. -/
def actionUrlOf (answer : HttpAnswer) : Except Exc Json := do
  let flowData ← jsonOf answer
  let ui ← subscript flowData "ui"
  subscript ui "action"

/-- `login_resp.json()["session_token"]`. -/
def sessionTokenOf (answer : HttpAnswer) : Except Exc Json := do
  let loginData ← jsonOf answer
  subscript loginData "session_token"

/-- `"errors" in data`. -/
def mentionsErrors (data : Json) : Except Exc Bool :=
  match data with
  | .obj fields => .ok (fields.lookup "errors").isSome
  | .arr items => .ok <| items.any fun
    | .str item => item = "errors"
    | _ => false
  | .str text => .ok (contains text "errors")
  | value =>
    .error { typeName := "TypeError", text := s!"argument of type '{value.typeName}' is not iterable" }

section

variable (T : PythonText)

/-- What a query returns for a response. -/
def dataOf (answer : HttpAnswer) : Except Exc Json := do
  let data ← jsonOf answer
  let failed ← mentionsErrors data
  if failed then
    let errors ← subscript data "errors"
    throw { typeName := "RuntimeError", text := s!"GraphQL errors: {T.str errors}" }
  match data with
  | .obj fields => return dictGet fields "data" (.obj [])
  | value =>
    throw { typeName := "AttributeError", text := s!"'{value.typeName}' object has no attribute 'get'" }

/-! ## The client -/

def MAX_RETRIES : Nat := 3

def BASE_DELAY : Rat := 1

structure GraphQLClient where
  graphqlEndpoint : String
  kratosPublicUrl : String
  email : String
  password : String

namespace GraphQLClient

variable (client : GraphQLClient)

/-- `kratos_public_url.rstrip("/")`, with the path of the login flow. -/
def loginFlowUrl : String :=
  String.ofList (client.kratosPublicUrl.toList.reverse.dropWhile (· = '/')).reverse ++
    "/self-service/login/api"

/-- A request whose answer is read by a function. -/
def requested {α : Type} (read : HttpAnswer → Except Exc α) (answer : Except Exc HttpAnswer) :
    Except Exc α := answer >>= read

/-- `authenticate`. -/
def authenticate : Querying Unit := do
  let actionUrl ← (Program.call (S := sessionSignature) (.initFlow client.loginFlowUrl)
    fun answer => .done (requested actionUrlOf answer) : Querying Json)
  let token ← (Program.call (S := sessionSignature)
    (.login actionUrl client.email client.password)
    fun answer => .done (requested sessionTokenOf answer) : Querying Json)
  writeToken token

/-- Log in if there is no session token. -/
def ensureToken : Querying Unit := do
  let token ← readToken
  if token.truthy then return () else client.authenticate

/-- The value of the `Authorization` header. -/
def bearer (token : Json) : String := "Bearer " ++ T.str token

/-- One attempt of `query`. -/
def attempt (queryStr : String) (vars : Json) : Program sessionSignature (Except Exc Json) :=
  Program.call (S := sessionSignature) .readToken fun token =>
    Program.call (S := sessionSignature)
      (.post client.graphqlEndpoint (bearer T token) queryStr vars)
      fun answer => .done (requested (dataOf T) answer)

/-- Every failure is retried, and the last one is raised. -/
def queryPolicy : RetryPolicy Exc Exc where
  fatal _ := none
  exhausted last := last.getD { typeName := "TypeError" }

/-- The pause after an attempt. -/
def pause (made : Nat) : Program sessionSignature (Except Exc Unit) :=
  Program.call (S := sessionSignature) (.sleep (BASE_DELAY * 2 ^ made)) fun _ => .done (.ok ())

/-- `query`. -/
def query (queryStr : String) (vars : Option Fields) : Querying Json := do
  client.ensureToken
  ExceptT.mk <| retry queryPolicy (client.attempt T queryStr (.obj (vars.getD []))) pause
    MAX_RETRIES

/-- `_credential_token`. -/
def credentialToken : Querying Json := do
  client.ensureToken
  readToken

end GraphQLClient

end

/-! ## Callers -/

/-- What a task asks of the client: a query, or the token for a fetch. -/
inductive ClientCall where
  | query (queryStr : String) (vars : Option Fields)
  | credentialToken

abbrev clientSignature : Signature where
  Call := ClientCall
  Answer _ := Except Exc Json

/-- A task of the client, as the calls that it makes. -/
def clientCall (T : PythonText) (client : GraphQLClient) :
    ClientCall → Program sessionSignature (Except Exc Json)
  | .query queryStr vars => (client.query T queryStr vars).run
  | .credentialToken => client.credentialToken.run

/-- The calls of a caller. -/
def callerProgram {α : Type} (T : PythonText) (client : GraphQLClient)
    (caller : Program clientSignature α) : Program sessionSignature α :=
  caller.expand (clientCall T client)

end VirtualContributor.Plugins
