import ContainerScanner.Domain.Models
import ContainerScanner.Foundation.Dialogue
import ContainerScanner.Foundation.PyDatetime
import ContainerScanner.Foundation.PyValue

/-!
# Resolving a digest

`app/registry/digest.py`. The registry is a peer whose replies may depend on everything it was
asked before. A reply is what a call of the `httpx` client comes to: a response after redirects, an
`httpx.HTTPError`, or another exception of the client's own.

`re`'s notion of a word character and `email.utils.parsedate_to_datetime` are parameters
(`Library`): nothing here depends on what they answer.

## Main definitions

* `parseReference`, `parseRetryAfter`, `parseChallenge` — the texts
* `Request`, `Reply`, `Peer` — the other side
* `fetchToken`, `resolveDigest` — the exchange
-/

namespace ContainerScanner

open Foundation

namespace Registry

/-! ### Exceptions -/

/-- What may be raised. The first three are the hierarchy of `RegistryError`. -/
inductive Raised where
  /-- Transient registry problem: worth retrying. -/
  | registryError (message : String)
  /-- The reference does not exist. -/
  | imageNotFound (message : String)
  /-- The registry is throttling us. -/
  | rateLimited (message : String) (retryAfter : Option ℕ)
  /-- `httpx.HTTPError`, which does not leave `resolve_digest`. -/
  | httpError (message : String)
  /-- Anything else, by its class. -/
  | other (error : String)
  deriving DecidableEq, Repr

/-! ### References -/

structure ImageReference where
  host : String
  repository : String
  tag : String
  deriving DecidableEq, Repr

def dockerHubHost : String := "registry-1.docker.io"

/-- Split `name` into a registry host and repository path. -/
def parseReference (name tag : String) : ImageReference :=
  let head := String.ofList (name.toList.takeWhile fun c => c ≠ '/')
  let rest := PyStr.afterFirst name '/'
  if rest ≠ "" ∧ ('.' ∈ head.toList ∨ ':' ∈ head.toList ∨ head = "localhost") then
    ⟨head, rest, tag⟩
  else ⟨dockerHubHost, if '/' ∈ name.toList then name else "library/" ++ name, tag⟩

/-! ### Headers -/

/-- What `parsedate_to_datetime` comes to. -/
inductive ParsedDate where
  | datetime (t : IsoDatetime)
  /-- A `TypeError` or a `ValueError`. -/
  | invalid
  /-- Any other exception, such as the `OverflowError` of an immense UTC offset. -/
  | raised (error : String)
  deriving DecidableEq, Repr

/-- The parts of the standard library that are used here and not spelled out. -/
structure Library where
  /-- `\w`. -/
  isWord : Char → Bool
  /-- `email.utils.parsedate_to_datetime`. -/
  parsedateToDatetime : String → ParsedDate

/-- Read a `Retry-After` header, which may be a delay or a date. -/
def parseRetryAfter (library : Library) (now : Timestamp) (raw : Option String) :
    Except Raised (Option ℕ) :=
  match raw.filter fun raw => raw ≠ "" with
  | none => .ok none
  | some raw =>
    let value := PyStr.strip raw
    match PyStr.int? value with
    | some delay => .ok (some delay.toNat)
    | none =>
      match library.parsedateToDatetime value with
      | .invalid => .ok none
      | .raised error => .error (.other error)
      -- a date without an offset is read as UTC
      | .datetime date => .ok (some (PyDatetime.wholeSeconds (date.toInstant - now)).toNat)

/-- How far a match of `(\w+)="([^"]*)"` has come; what was read is kept in reverse. -/
inductive Scan where
  | word (name : List Char)
  | equals (name : List Char)
  | value (name value : List Char)

/-- `_CHALLENGE.findall`. An unclosed quote ends the search: no later match could close. -/
def findall (isWord : Char → Bool) : Scan → List Char → List (String × String)
  | _, [] => []
  | .word name, c :: cs =>
    if isWord c then findall isWord (.word (c :: name)) cs
    else if c = '=' ∧ name ≠ [] then findall isWord (.equals name) cs
    else findall isWord (.word []) cs
  | .equals name, c :: cs =>
    if c = '"' then findall isWord (.value name []) cs
    else if isWord c then findall isWord (.word [c]) cs
    else findall isWord (.word []) cs
  | .value name value, c :: cs =>
    if c = '"' then
      (String.ofList name.reverse, String.ofList value.reverse) :: findall isWord (.word []) cs
    else findall isWord (.value name (c :: value)) cs

def parseChallenge (library : Library) (header : String) : Dict String String :=
  Dict.ofList (findall library.isWord (.word []) header.toList)

/-! ### The other side -/

inductive Request where
  | headManifest (url : String) (token : Option Json)
  | getToken (realm : String) (params : List (String × String))
  | getManifest (url : String) (token : Option Json)

/-- A response, in the parts that are read. -/
structure Response where
  status : ℕ
  retryAfter : Option String
  wwwAuthenticate : Option String
  dockerContentDigest : Option String
  /-- `response.json()`, or the class of what it raises. -/
  json : Except String Json

/-- What a call of the client comes to. -/
inductive Reply where
  | response (r : Response)
  /-- An `httpx.HTTPError`. -/
  | httpError (message : String)
  /-- Another exception, such as the `httpx.InvalidURL` of a realm that is no URL. -/
  | raised (error : String)

abbrev Peer : Type := Log Request Reply → Request → Reply

abbrev Exchange (α : Type) : Type := Dialogue Request Reply Raised α

/-- `client.head` and `client.get`. -/
def send (peer : Peer) (request : Request) : Exchange Response := do
  match ← ask peer request with
  | .response response => return response
  | .httpError message => throw (.httpError message)
  | .raised error => throw (.other error)

/-! ### The exchange -/

/-- `raise RateLimited(message, retry_after=parse_retry_after(…))`. -/
def raiseRateLimited {α : Type} (library : Library) (now : Timestamp) (message : String)
    (response : Response) : Exchange α :=
  match parseRetryAfter library now response.retryAfter with
  | .ok retryAfter => throw (.rateLimited message retryAfter)
  | .error e => throw e

/-- The `params` of the token request. -/
def tokenParams (challenge : Dict String String) : List (String × String) :=
  challenge.entries.filter fun e => decide ((e.1 = "service" ∨ e.1 = "scope") ∧ e.2 ≠ "")

/-- The token a challenge leads to; `None` is `Json.null`. -/
def fetchToken (library : Library) (peer : Peer) (now : Timestamp)
    (challenge : Dict String String) : Exchange Json :=
  match (challenge.get? "realm").filter fun realm => realm ≠ "" with
  | none => return .null
  | some realm => do
    let response ← send peer (.getToken realm (tokenParams challenge))
    -- registries meter the token endpoint separately
    if response.status = 429 then
      raiseRateLimited library now ("auth endpoint " ++ realm ++ " is throttling us") response
    else if response.status ≠ 200 then
      throw (.registryError
        ("auth failed at " ++ realm ++ ": HTTP " ++ toString response.status))
    else
      match response.json with
      | .error e => throw (.other e)
      | .ok (.dict payload) =>
        return (Json.get payload "token").orElse (Json.get payload "access_token")
      | .ok _ => throw (.other "AttributeError")

/-- The manifest `HEAD`, repeated with a token when the registry asks for one. -/
def headManifest (library : Library) (peer : Peer) (now : Timestamp) (url : String) :
    Exchange (Response × Option Json) := do
  let response ← send peer (.headManifest url none)
  if response.status = 401 then
    let token ← fetchToken library peer now
      (parseChallenge library (response.wwwAuthenticate.getD ""))
    if token.truthy then
      let response ← send peer (.headManifest url (some token))
      return (response, some token)
    else return (response, none)
  else return (response, none)

/-- `Docker-Content-Digest`, when it says anything. -/
def contentDigest (response : Response) : Option String :=
  response.dockerContentDigest.filter fun digest => digest ≠ ""

def manifestUrl (reference : ImageReference) : String :=
  "https://" ++ reference.host ++ "/v2/" ++ reference.repository ++ "/manifests/" ++ reference.tag

/-- `except httpx.HTTPError as exc: raise RegistryError(…)`. -/
def wrapHttpError : Raised → Raised
  | .httpError message => .registryError ("registry request failed: " ++ message)
  | e => e

/-- The `Docker-Content-Digest` of a reference. -/
def resolveDigest (library : Library) (peer : Peer) (now : Timestamp)
    (reference : ImageReference) : Exchange String :=
  let image := reference.repository ++ ":" ++ reference.tag
  EStateM.adaptExcept wrapHttpError do
    let (response, token) ← headManifest library peer now (manifestUrl reference)
    if response.status = 429 then
      raiseRateLimited library now (reference.host ++ " is throttling us") response
    else if response.status = 404 then
      throw (.imageNotFound (image ++ " not found"))
    else if response.status ≠ 200 then
      throw (.registryError
        ("manifest HEAD returned HTTP " ++ toString response.status ++ " for " ++ image))
    else
      match contentDigest response with
      | some digest => return digest
      | none =>
        -- some registries omit the header on `HEAD`
        let response ← send peer (.getManifest (manifestUrl reference) token)
        match contentDigest response with
        | some digest => return digest
        | none => throw (.registryError "registry did not return Docker-Content-Digest")

end Registry

end ContainerScanner
