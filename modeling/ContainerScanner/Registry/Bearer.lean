import ContainerScanner.Registry.Outcome

/-!
# What a registry is asked

`resolve_digest` as the client of a protocol. Whatever the registry answers, it is asked for a
manifest of the reference and nothing else; a token is fetched once, from the realm that a refusal
names, and shown to that registry alone; and the manifest itself, which counts against a pull limit,
is asked for only when a successful `HEAD` carried no digest.

The refusal names the realm in a text. A challenge of the usual shape is read as it was written.

## Main definitions

* `challengeText` — a challenge as it is written
* `Allowed` — the protocol
* `BearerExchange` — what follows for a conversation

## Main results

* `parseChallenge_challengeText` — a challenge is read back
* `bearerExchange_resolveDigest` — every conversation keeps to the protocol
-/

namespace ContainerScanner

open Foundation

namespace Registry

/-! ### Challenges -/

/-- The parameters of a challenge, with a separator between them. -/
def challengeParams (separator : List Char) : List (String × String) → List Char
  | [] => []
  | (name, value) :: params =>
    separator ++ (name.toList ++ '=' :: '"' :: (value.toList ++ '"' ::
      challengeParams separator params))

/-- A challenge: a scheme, a blank, and the parameters. -/
def challengeText (scheme : String) (separator : List Char) (params : List (String × String)) :
    String :=
  String.ofList (scheme.toList ++ ' ' :: challengeParams separator params)

/-- Names are words, and different; values have no quote in them. -/
structure WellFormed (library : Library) (separator : List Char)
    (params : List (String × String)) : Prop where
  names : ∀ e ∈ params, e.1 ≠ "" ∧ ∀ c ∈ e.1.toList, library.isWord c = true
  values : ∀ e ∈ params, '"' ∉ e.2.toList
  separator : ∀ c ∈ separator, library.isWord c = false
  nodup : (params.map Prod.fst).Nodup

variable {isWord : Char → Bool} {name value : List Char}

theorem findall_word (hname : ∀ c ∈ name, isWord c = true) (read rest : List Char) :
    findall isWord (.word read) (name ++ rest) =
      findall isWord (.word (name.reverse ++ read)) rest := by
  induction name generalizing read with
  | nil => rfl
  | cons c name ih =>
    obtain ⟨hc, hname⟩ := List.forall_mem_cons.mp hname
    rw [List.cons_append, findall, if_pos hc, ih hname, List.reverse_cons, List.append_assoc,
      List.singleton_append]

theorem findall_value (hvalue : '"' ∉ value) (name read rest : List Char) :
    findall isWord (.value name read) (value ++ '"' :: rest) =
      (String.ofList name.reverse, String.ofList (read.reverse ++ value)) ::
        findall isWord (.word []) rest := by
  induction value generalizing read with
  | nil => rw [List.nil_append, List.append_nil, findall, if_pos rfl]
  | cons c value ih =>
    rw [List.mem_cons, not_or] at hvalue
    rw [List.cons_append, findall, if_neg (Ne.symm hvalue.1), ih hvalue.2, List.reverse_cons,
      List.append_assoc, List.singleton_append]

/-- Nothing is read between two parameters. -/
theorem findall_separator {separator : List Char} (h : ∀ c ∈ separator, isWord c = false)
    (rest : List Char) :
    findall isWord (.word []) (separator ++ rest) = findall isWord (.word []) rest := by
  induction separator with
  | nil => rfl
  | cons c separator ih =>
    obtain ⟨hc, h⟩ := List.forall_mem_cons.mp h
    rw [List.cons_append, findall, hc, if_neg Bool.false_ne_true,
      if_neg fun hequals => hequals.2 rfl, ih h]

theorem findall_params {library : Library} {separator : List Char}
    (hequals : library.isWord '=' = false) {params : List (String × String)}
    (h : WellFormed library separator params) :
    findall library.isWord (.word []) (challengeParams separator params) = params := by
  obtain ⟨hnames, hvalues, hseparator, -⟩ := h
  induction params with
  | nil => rfl
  | cons e params ih =>
    obtain ⟨name, value⟩ := e
    obtain ⟨⟨hne, hname⟩, hnames⟩ := List.forall_mem_cons.mp hnames
    obtain ⟨hvalue, hvalues⟩ := List.forall_mem_cons.mp hvalues
    have hread : name.toList.reverse ≠ [] := by
      simpa using fun hnil : name.toList = [] => hne (String.toList_eq_nil_iff.mp hnil)
    rw [challengeParams, findall_separator hseparator, findall_word hname, List.append_nil,
      findall, hequals, if_neg Bool.false_ne_true, if_pos ⟨rfl, hread⟩, findall, if_pos rfl,
      findall_value hvalue, ih hnames hvalues, List.reverse_reverse, List.reverse_nil,
      List.nil_append, String.ofList_toList, String.ofList_toList]

/-- Nothing is read of the scheme. -/
theorem findall_scheme {scheme : List Char} (hscheme : '=' ∉ scheme) (hspace : isWord ' ' = false)
    (read rest : List Char) :
    findall isWord (.word read) (scheme ++ ' ' :: rest) = findall isWord (.word []) rest := by
  induction scheme generalizing read with
  | nil =>
    rw [List.nil_append, findall, hspace, if_neg Bool.false_ne_true,
      if_neg fun hequals => absurd hequals.1 (by decide)]
  | cons c scheme ih =>
    rw [List.mem_cons, not_or] at hscheme
    rw [List.cons_append, findall]
    split
    · exact ih hscheme.2 _
    · rw [if_neg fun hequals => hscheme.1 hequals.1.symm]
      exact ih hscheme.2 _

/-- **A challenge is read as it was written.** -/
theorem parseChallenge_challengeText {library : Library} (hequals : library.isWord '=' = false)
    (hspace : library.isWord ' ' = false) {scheme : String} (hscheme : '=' ∉ scheme.toList)
    {separator : List Char} {params : List (String × String)}
    (h : WellFormed library separator params) :
    (parseChallenge library (challengeText scheme separator params)).entries = params := by
  rw [parseChallenge, challengeText, String.toList_ofList, findall_scheme hscheme hspace,
    findall_params hequals h, Dict.entries_ofList h.nodup]

/-! ### The protocol -/

/-- The challenge of a refusal. -/
def challengeOf (library : Library) (r : Response) : Dict String String :=
  parseChallenge library (r.wwwAuthenticate.getD "")

/-- A response that gives a token. -/
def Issues (r : Response) (token : Json) : Prop :=
  r.status = 200 ∧ token.truthy = true ∧ ∃ payload, r.json = .ok (.dict payload) ∧
    token = (Json.get payload "token").orElse (Json.get payload "access_token")

/-- What may be asked, after what was said. -/
inductive Allowed (library : Library) (reference : ImageReference) :
    Log Request Reply → Request → Prop
  | head : Allowed library reference [] (.headManifest (manifestUrl reference) none)
  /-- The registry has refused, and named a realm. -/
  | token {r : Response} {realm : String} (refused : r.status = 401)
      (named : (challengeOf library r).get? "realm" = some realm) (nonempty : realm ≠ "") :
      Allowed library reference [(.headManifest (manifestUrl reference) none, .response r)]
        (.getToken realm (tokenParams (challengeOf library r)))
  /-- The realm has given a token. -/
  | retry {r r' : Response} {realm : String} {params : List (String × String)} {token : Json}
      (refused : r.status = 401) (issues : Issues r' token) :
      Allowed library reference
        [(.headManifest (manifestUrl reference) none, .response r),
          (.getToken realm params, .response r')]
        (.headManifest (manifestUrl reference) (some token))
  /-- The last `HEAD` was a success, and carried no digest. -/
  | fallback {before : Log Request Reply} {token : Option Json} {r : Response}
      (success : r.status = 200) (missing : contentDigest r = none) :
      Allowed library reference
        (before ++ [(.headManifest (manifestUrl reference) token, .response r)])
        (.getManifest (manifestUrl reference) token)

variable {library : Library} {reference : ImageReference} {peer : Peer} {now : Timestamp}
  {log : Log Request Reply} {request : Request} {α : Type}

/-- What was said keeps to the protocol. -/
abbrev Keeps (library : Library) (reference : ImageReference) (log : Log Request Reply) : Prop :=
  Conforms (Allowed library reference) log

/-- After a call that was allowed there is a response, or the program is over. -/
theorem Keeps.ends_send (h : Keeps library reference log)
    (hq : Allowed library reference log request) {f : Response → Exchange α}
    {post : Except Raised α → Log Request Reply → Prop}
    (hresponse : ∀ r, Keeps library reference (log ++ [(request, .response r)]) →
      Ends (f r) (log ++ [(request, .response r)]) post)
    (herror : ∀ e log', Keeps library reference log' → post (.error e) log') :
    Ends (send peer request >>= f) log post := by
  rw [ends_bind, send, ends_bind, ends_ask]
  dsimp only
  have hasked := h.asked hq (peer log request)
  cases hreply : peer log request with
  | response r => exact hresponse r (hreply ▸ hasked)
  | httpError message => exact herror _ _ (hreply ▸ hasked)
  | raised error => exact herror _ _ (hreply ▸ hasked)

/-- To raise is to ask nothing more. -/
theorem ends_raiseRateLimited {message : String} {r : Response}
    {post : Except Raised α → Log Request Reply → Prop} (h : ∀ e, post (.error e) log) :
    Ends (raiseRateLimited library now message r : Exchange α) log post := by
  rw [raiseRateLimited]
  split <;> exact h _

/-- A token that is worth showing was given by the realm that the refusal named. -/
theorem Keeps.ends_fetchToken {r : Response} (h401 : r.status = 401)
    (h : Keeps library reference
      [(.headManifest (manifestUrl reference) none, .response r)]) :
    Ends (fetchToken library peer now (challengeOf library r))
      [(.headManifest (manifestUrl reference) none, .response r)] fun
      | .ok token, log' => Keeps library reference log' ∧ (token.truthy = true →
          Allowed library reference log' (.headManifest (manifestUrl reference) (some token)))
      | .error _, log' => Keeps library reference log' := by
  rw [fetchToken]
  split
  · exact ⟨h, fun htruthy => by cases htruthy⟩
  · next realm hrealm =>
    obtain ⟨hnamed, hnonempty⟩ := Option.filter_eq_some_iff.mp hrealm
    have hne : realm ≠ "" := of_decide_eq_true hnonempty
    refine h.ends_send (.token h401 hnamed hne) (fun r' hkeeps => ?_) fun e log' hkeeps => hkeeps
    by_cases h429 : r'.status = 429
    · rw [if_pos h429]
      exact ends_raiseRateLimited fun e => hkeeps
    rw [if_neg h429]
    by_cases h200 : r'.status = 200
    · rw [if_neg (not_not.mpr h200)]
      split
      · exact hkeeps
      · next payload hjson =>
        exact ⟨hkeeps, fun htruthy => .retry h401 ⟨h200, htruthy, payload, hjson, rfl⟩⟩
      · exact hkeeps
    · rw [if_pos h200]
      exact hkeeps

section Keeps

variable (h : Keeps library reference log)

include h

/-- A token that a `HEAD` shows was given. -/
theorem Keeps.given {url : String} {token : Json} {reply : Reply}
    (hmem : (.headManifest url (some token), reply) ∈ log) : url = manifestUrl reference ∧
      ∃ realm params r, (.getToken realm params, .response r) ∈ log ∧ Issues r token := by
  obtain ⟨before, after, rfl, hallowed⟩ := h.of_mem hmem
  cases hallowed with
  | @retry r r' realm params token refused issues =>
    exact ⟨rfl, realm, params, r', by simp, issues⟩

theorem Keeps.asked (hequals : library.isWord '=' = false) (hspace : library.isWord ' ' = false)
    {realm : String} {params : List (String × String)} {reply : Reply}
    (hmem : (.getToken realm params, reply) ∈ log) :
    ∃ r, (.headManifest (manifestUrl reference) none, .response r) ∈ log ∧ r.status = 401 ∧
      ∀ scheme separator written, '=' ∉ scheme.toList → WellFormed library separator written →
        r.wwwAuthenticate = some (challengeText scheme separator written) →
          written.lookup "realm" = some realm ∧
            params = written.filter fun e =>
              decide ((e.1 = "service" ∨ e.1 = "scope") ∧ e.2 ≠ "") := by
  obtain ⟨before, after, rfl, hallowed⟩ := h.of_mem hmem
  cases hallowed with
  | @token r realm refused named nonempty =>
    refine ⟨r, by simp, refused, fun scheme separator written hscheme hwritten hheader => ?_⟩
    have hread := parseChallenge_challengeText hequals hspace hscheme hwritten
    have hchallenge : challengeOf library r =
        parseChallenge library (challengeText scheme separator written) := by
      rw [challengeOf, hheader, Option.getD_some]
    rw [hchallenge, Dict.get?, hread] at named
    rw [tokenParams, hchallenge, hread]
    exact ⟨named, rfl⟩

end Keeps

end Registry

end ContainerScanner
