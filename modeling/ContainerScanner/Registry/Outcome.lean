import ContainerScanner.Registry.Digest

/-!
# What an exchange with a registry comes to

A throttle is to be waited out, a missing reference given up on, and anything else retried. Which of
these the worker does is decided by the exception `resolve_digest` raises. It raises the right one
unless a token endpoint answers what is no JSON object, a throttle names a date that cannot be read,
or the fallback `GET`, whose status nobody looks at, is answered with anything but a plain success.

## Main definitions

* `Classified` — the exception says what the responses say
* `Regular` — a reply that the code expects

## Main results

* `classified_iff_regular` — exactly when an exchange is classified right
-/

namespace ContainerScanner

open Foundation

namespace Registry

variable {library : Library} {peer : Peer} {now : Timestamp} {log : Log Request Reply}

/-! ### The classification -/

/-- The response to a manifest request. -/
def manifestResponse : Request × Reply → Option Response
  | (.headManifest _ _, .response r) => some r
  | (.getManifest _ _, .response r) => some r
  | _ => none

/-- The last response to a manifest request. -/
def lastManifest (log : Log Request Reply) : Option Response :=
  log.reverse.findSome? manifestResponse

/-- No response throttles us. -/
def Unthrottled (log : Log Request Reply) : Prop :=
  ∀ request response, (request, Reply.response response) ∈ log → response.status ≠ 429

/-- The outcome is the one the responses call for. -/
structure Classified (library : Library) (now : Timestamp) (result : Except Raised String)
    (log : Log Request Reply) : Prop where
  /-- A throttle is reported, with the delay its header names. -/
  throttled : ∀ request response, (request, Reply.response response) ∈ log →
    response.status = 429 → ∃ message retryAfter,
      parseRetryAfter library now response.retryAfter = .ok retryAfter ∧
        result = .error (.rateLimited message retryAfter)
  /-- So is a missing reference. -/
  missing : Unthrottled log → ∀ response, lastManifest log = some response →
    response.status = 404 → ∃ message, result = .error (.imageNotFound message)
  /-- Otherwise there is a digest, which a successful response carried, or an error worth a
  retry. -/
  otherwise : Unthrottled log → (∀ response, lastManifest log = some response →
    response.status ≠ 404) →
    (∃ digest response, result = .ok digest ∧ digest ≠ "" ∧ lastManifest log = some response ∧
        response.dockerContentDigest = some digest ∧ response.status = 200) ∨
      ∃ message, result = .error (.registryError message)

/-! ### The condition -/

/-- A delay that is absent, a number, or a date that the library makes something of. -/
def Response.HasReadableDelay (library : Library) (now : Timestamp) (response : Response) : Prop :=
  ∃ retryAfter, parseRetryAfter library now response.retryAfter = .ok retryAfter

/-- The client raises nothing of its own, a throttle names a readable delay, a token is in a JSON
object, and the fallback `GET` is a success or brings no digest. -/
def Regular (library : Library) (now : Timestamp) : Request × Reply → Prop
  | (_, .raised _) => False
  | (_, .httpError _) => True
  | (.headManifest _ _, .response r) => r.status = 429 → r.HasReadableDelay library now
  | (.getToken _ _, .response r) =>
    (r.status = 429 → r.HasReadableDelay library now) ∧
      (r.status = 200 → ∃ payload, r.json = .ok (.dict payload))
  | (.getManifest _ _, .response r) =>
    r.status = 200 ∨ r.status ≠ 429 ∧ r.status ≠ 404 ∧ contentDigest r = none

/-- The two sides of the theorem, for one outcome. -/
def Settled (library : Library) (now : Timestamp) (result : Except Raised String)
    (log : Log Request Reply) : Prop :=
  Classified library now result log ↔ ∀ x ∈ log, Regular library now x

/-! ### Shapes of outcomes -/

theorem contentDigest_eq_some {r : Response} {digest : String} :
    contentDigest r = some digest ↔ r.dockerContentDigest = some digest ∧ digest ≠ "" := by
  rw [contentDigest, Option.filter_eq_some_iff, decide_eq_true_eq]

theorem lastManifest_concat (x : Request × Reply) :
    lastManifest (log ++ [x]) = (manifestResponse x).or (lastManifest log) := by
  rw [lastManifest, List.reverse_concat, List.findSome?_cons, lastManifest]
  cases manifestResponse x <;> rfl

/-- So far neither throttled nor missing. -/
structure Quiet (log : Log Request Reply) : Prop where
  unthrottled : Unthrottled log
  found : ∀ response, lastManifest log = some response → response.status ≠ 404

theorem quiet_nil : Quiet [] := ⟨by simp [Unthrottled], by simp [lastManifest]⟩

/-- A call that gets no response leaves it so. -/
theorem Quiet.concat_of_noResponse (h : Quiet log) {x : Request × Reply}
    (hx : ∀ response, x.2 ≠ .response response) : Quiet (log ++ [x]) := by
  refine ⟨fun request response hmem => ?_, fun response hlast => h.found response ?_⟩
  · rcases List.mem_append.mp hmem with hmem | hmem
    · exact h.unthrottled request response hmem
    · exact absurd (congrArg Prod.snd (List.mem_singleton.mp hmem)).symm (hx response)
  · obtain ⟨request, reply⟩ := x
    rw [lastManifest_concat] at hlast
    cases reply with
    | response r => exact absurd rfl (hx r)
    | httpError message => cases request <;> exact hlast
    | raised error => cases request <;> exact hlast

theorem Quiet.concat_response (h : Quiet log) {request : Request} {r : Response}
    (hthrottled : r.status ≠ 429)
    (hfound : manifestResponse (request, .response r) = some r → r.status ≠ 404) :
    Quiet (log ++ [(request, .response r)]) := by
  refine ⟨fun request' r' hmem => ?_, fun r' hlast => ?_⟩
  · rcases List.mem_append.mp hmem with hmem | hmem
    · exact h.unthrottled request' r' hmem
    · obtain ⟨-, heq⟩ := Prod.mk.inj (List.mem_singleton.mp hmem)
      rw [Reply.response.inj heq]
      exact hthrottled
  · rw [lastManifest_concat] at hlast
    cases request with
    | getToken realm params => exact h.found r' hlast
    | headManifest url token => exact Option.some.inj hlast ▸ hfound rfl
    | getManifest url token => exact Option.some.inj hlast ▸ hfound rfl

/-- While it is so, the result is a digest that a success carried, or an error worth a retry. -/
theorem Quiet.classified_iff (h : Quiet log) {result : Except Raised String} :
    Classified library now result log ↔
      (∃ digest response, result = .ok digest ∧ digest ≠ "" ∧ lastManifest log = some response ∧
        response.dockerContentDigest = some digest ∧ response.status = 200) ∨
      ∃ message, result = .error (.registryError message) := by
  constructor
  · exact fun hresult => hresult.otherwise h.unthrottled h.found
  · exact fun hresult => ⟨fun request r hmem h429 => absurd h429 (h.unthrottled request r hmem),
      fun _ r hlast h404 => absurd h404 (h.found r hlast), fun _ _ => hresult⟩

/-- What precedes the reply that decides. -/
structure Calm (library : Library) (now : Timestamp) (log : Log Request Reply) : Prop
    extends Quiet log where
  regular : ∀ x ∈ log, Regular library now x

theorem calm_nil : Calm library now [] := ⟨quiet_nil, by simp⟩

theorem Calm.forall_regular_iff (h : Calm library now log) (x : Request × Reply) :
    (∀ y ∈ log ++ [x], Regular library now y) ↔ Regular library now x := by
  constructor
  · exact fun hall => hall x (by simp)
  · intro hx y hy
    rcases List.mem_append.mp hy with hy | hy
    · exact h.regular y hy
    · rw [List.mem_singleton.mp hy]
      exact hx

theorem Calm.concat (h : Calm library now log) {x : Request × Reply} (hquiet : Quiet (log ++ [x]))
    (hx : Regular library now x) : Calm library now (log ++ [x]) :=
  ⟨hquiet, (h.forall_regular_iff x).mpr hx⟩

theorem Calm.settled_registryError (h : Calm library now log) (message : String) :
    Settled library now (.error (.registryError message)) log :=
  iff_of_true (h.classified_iff.mpr (Or.inr ⟨message, rfl⟩)) h.regular

/-- A call that gets no response. -/
theorem Calm.settled_httpError (h : Calm library now log) (request : Request) (message : String) :
    Settled library now (.error (wrapHttpError (.httpError message)))
      (log ++ [(request, .httpError message)]) :=
  (h.concat (h.concat_of_noResponse (by simp))
    (by cases request <;> trivial)).settled_registryError _

/-- An exception of the client's own is one too many. -/
theorem Calm.settled_raised (h : Calm library now log) (request : Request) (error : String) :
    Settled library now (.error (.other error)) (log ++ [(request, .raised error)]) := by
  refine iff_of_false ?_ ?_
  · rw [(h.concat_of_noResponse (by simp)).classified_iff]
    simp
  · rw [h.forall_regular_iff]
    cases request <;> exact id

/-- A throttle, on a request whose response is looked at. -/
theorem Calm.ends_raiseRateLimited {α : Type} (h : Calm library now log) {request : Request}
    {r : Response} (h429 : r.status = 429)
    (hregular : Regular library now (request, .response r) ↔ r.HasReadableDelay library now)
    (message : String) :
    Ends (raiseRateLimited library now message r : Exchange α) (log ++ [(request, .response r)])
      fun
      | .ok _, _ => False
      | .error e, log' => Settled library now (.error (wrapHttpError e)) log' := by
  have hthrottled : ¬ Unthrottled (log ++ [(request, .response r)]) :=
    fun hnone => hnone request r (by simp) h429
  rw [raiseRateLimited]
  cases hdelay : parseRetryAfter library now r.retryAfter with
  | error e =>
    refine iff_of_false (fun hresult => ?_) ?_
    · obtain ⟨-, retryAfter, hread, -⟩ := hresult.throttled request r (by simp) h429
      rw [hdelay] at hread
      cases hread
    · rw [h.forall_regular_iff, hregular]
      rintro ⟨retryAfter, hread⟩
      rw [hdelay] at hread
      cases hread
  | ok retryAfter =>
    refine iff_of_true ⟨fun request' r' hmem h429' => ?_, fun hnone => absurd hnone hthrottled,
      fun hnone => absurd hnone hthrottled⟩ ?_
    · rcases List.mem_append.mp hmem with hmem | hmem
      · exact absurd h429' (h.unthrottled request' r' hmem)
      · obtain ⟨-, heq⟩ := Prod.mk.inj (List.mem_singleton.mp hmem)
        rw [Reply.response.inj heq]
        exact ⟨message, retryAfter, hdelay, rfl⟩
    · rw [h.forall_regular_iff, hregular]
      exact ⟨retryAfter, hdelay⟩

/-! ### The exchange, call by call -/

/-- After a call there is a response, or the exchange is over. -/
theorem Calm.ends_send {α : Type} (h : Calm library now log) {request : Request}
    {f : Response → Exchange α} {post : Except Raised α → Log Request Reply → Prop}
    (hresponse : ∀ r, Ends (f r) (log ++ [(request, .response r)]) post)
    (herror : ∀ e log', Settled library now (.error (wrapHttpError e)) log' →
      post (.error e) log') :
    Ends (send peer request >>= f) log post := by
  rw [ends_bind, send, ends_bind, ends_ask]
  dsimp only
  cases peer log request with
  | response r => exact hresponse r
  | httpError message => exact herror _ _ (h.settled_httpError request message)
  | raised error => exact herror _ _ (h.settled_raised request error)

/-- A token endpoint leaves things calm, or the exchange is over. -/
theorem Calm.ends_fetchToken (h : Calm library now log) (challenge : Dict String String) :
    Ends (fetchToken library peer now challenge) log fun
      | .ok _, log' => Calm library now log'
      | .error e, log' => Settled library now (.error (wrapHttpError e)) log' := by
  rw [fetchToken]
  split
  · exact h
  · next realm _ =>
    refine h.ends_send (fun r => ?_) fun e log' hsettled => hsettled
    by_cases h429 : r.status = 429
    · rw [if_pos h429]
      have hregular : Regular library now (.getToken realm (tokenParams challenge), .response r)
          ↔ r.HasReadableDelay library now :=
        ⟨fun hr => hr.1 h429, fun hr => ⟨fun _ => hr, fun h200 => by omega⟩⟩
      refine (h.ends_raiseRateLimited h429 hregular _).mono ?_
      rintro (e | a) log' hpost
      · exact hpost
      · exact hpost.elim
    have hquiet : Quiet (log ++ [(Request.getToken realm (tokenParams challenge),
        Reply.response r)]) := h.concat_response h429 nofun
    rw [if_neg h429]
    by_cases h200 : r.status = 200
    · rw [if_neg (not_not.mpr h200)]
      split
      · next e hjson =>
        refine iff_of_false ?_ ?_
        · rw [hquiet.classified_iff]
          simp [wrapHttpError]
        · rw [h.forall_regular_iff]
          rintro ⟨-, hdict⟩
          obtain ⟨payload, hpayload⟩ := hdict h200
          rw [hjson] at hpayload
          cases hpayload
      · next payload hjson =>
        exact h.concat hquiet ⟨fun h' => absurd h' h429, fun _ => ⟨payload, hjson⟩⟩
      · next json hother hjson =>
        refine iff_of_false ?_ ?_
        · rw [hquiet.classified_iff]
          simp [wrapHttpError]
        · rw [h.forall_regular_iff]
          rintro ⟨-, hdict⟩
          obtain ⟨payload, hpayload⟩ := hdict h200
          exact hother payload (by rw [hjson] at hpayload; exact Except.ok.inj hpayload)
    · rw [if_pos h200]
      exact (h.concat hquiet
        ⟨fun h' => absurd h' h429, fun h' => absurd h' h200⟩).settled_registryError _

/-- The `HEAD` that counts is the last reply, or it was refused and a token was not to be had. -/
theorem ends_headManifest (url : String) :
    Ends (headManifest library peer now url) [] fun
      | .ok (r, _), log' => (r.status = 401 ∧ Calm library now log') ∨
          ∃ log₀ token, Calm library now log₀ ∧
            log' = log₀ ++ [(.headManifest url token, .response r)]
      | .error e, log' => Settled library now (.error (wrapHttpError e)) log' := by
  rw [headManifest]
  refine calm_nil.ends_send (fun r => ?_) fun e log' hsettled => hsettled
  by_cases h401 : r.status = 401
  · have hcalm : Calm library now ([] ++ [(.headManifest url none, .response r)]) :=
      calm_nil.concat (quiet_nil.concat_response (by omega) fun _ => by omega) fun h429 => by omega
    rw [if_pos h401, ends_bind]
    refine (hcalm.ends_fetchToken _).mono ?_
    rintro (e | token) log' hpost
    · exact hpost
    · by_cases htoken : token.truthy = true
      · simp only [if_pos htoken]
        exact Calm.ends_send hpost (fun r' => Or.inr ⟨log', _, hpost, rfl⟩)
          fun e log'' hsettled => hsettled
      · simp only [if_neg htoken]
        exact Or.inl ⟨h401, hpost⟩
  · rw [if_neg h401]
    exact Or.inr ⟨[], none, calm_nil, rfl⟩

theorem Calm.settled_imageNotFound (h : Calm library now log) {r : Response}
    (h404 : r.status = 404) (url : String) (token : Option Json) (message : String) :
    Settled library now (.error (.imageNotFound message))
      (log ++ [(.headManifest url token, .response r)]) := by
  have hlast :
      lastManifest (log ++ [(Request.headManifest url token, Reply.response r)]) = some r :=
    lastManifest_concat _
  refine iff_of_true ⟨fun request r' hmem h429 => ?_, fun _ _ _ _ => ⟨message, rfl⟩,
    fun _ hfound => absurd h404 (hfound r hlast)⟩ ?_
  · rcases List.mem_append.mp hmem with hmem | hmem
    · exact absurd h429 (h.unthrottled request r' hmem)
    · obtain ⟨-, heq⟩ := Prod.mk.inj (List.mem_singleton.mp hmem)
      rw [Reply.response.inj heq] at h429
      omega
  · rw [h.forall_regular_iff]
    exact fun h429 => by omega

/-- Nobody looks at the status of the fallback. -/
theorem Calm.settled_getManifest (h : Calm library now log) (url : String) (token : Option Json)
    (r : Response) :
    Settled library now
      (match contentDigest r with
        | some digest => .ok digest
        | none => .error (.registryError "registry did not return Docker-Content-Digest"))
      (log ++ [(.getManifest url token, .response r)]) := by
  have hlast :
      lastManifest (log ++ [(Request.getManifest url token, Reply.response r)]) = some r := by
    rw [lastManifest_concat]
    rfl
  rw [Settled, h.forall_regular_iff]
  by_cases h429 : r.status = 429
  · refine iff_of_false (fun hresult => ?_) (by simp [Regular, h429])
    obtain ⟨message, retryAfter, -, heq⟩ :=
      hresult.throttled (.getManifest url token) r (by simp) h429
    split at heq <;> cases heq
  have hthrottled : Unthrottled (log ++ [(Request.getManifest url token, Reply.response r)]) := by
    intro request' r' hmem
    rcases List.mem_append.mp hmem with hmem | hmem
    · exact h.unthrottled request' r' hmem
    · obtain ⟨-, heq⟩ := Prod.mk.inj (List.mem_singleton.mp hmem)
      rw [Reply.response.inj heq]
      exact h429
  by_cases h404 : r.status = 404
  · refine iff_of_false (fun hresult => ?_) (by simp [Regular, h404])
    obtain ⟨message, heq⟩ := hresult.missing hthrottled r hlast h404
    split at heq <;> cases heq
  rw [(h.concat_response h429 fun _ => h404).classified_iff]
  cases hdigest : contentDigest r with
  | none => simp [Regular, h429, h404, hdigest]
  | some digest =>
    obtain ⟨hheader, hne⟩ := contentDigest_eq_some.mp hdigest
    simp [Regular, hdigest, hlast, hheader, hne]

theorem settled_resolveDigest (reference : ImageReference) :
    Ends (resolveDigest library peer now reference) [] (Settled library now) := by
  rw [resolveDigest, ends_adaptExcept, ends_bind]
  refine (ends_headManifest _).mono ?_
  rintro (e | ⟨r, token⟩) log' hpost
  · exact hpost
  rcases hpost with ⟨h401, hcalm⟩ | ⟨log, token', hcalm, rfl⟩
  · simp only [h401]
    exact hcalm.settled_registryError _
  by_cases h429 : r.status = 429
  · simp only [if_pos h429]
    have hregular : Regular library now (.headManifest (manifestUrl reference) token', .response r)
        ↔ r.HasReadableDelay library now := ⟨fun hr => hr h429, fun hr _ => hr⟩
    refine (hcalm.ends_raiseRateLimited h429 hregular _).mono ?_
    rintro (e | a) log' hpost
    · exact hpost
    · exact hpost.elim
  simp only [if_neg h429]
  by_cases h404 : r.status = 404
  · simp only [if_pos h404]
    exact hcalm.settled_imageNotFound h404 _ _ _
  simp only [if_neg h404]
  have hhead : Calm library now
      (log ++ [(.headManifest (manifestUrl reference) token', .response r)]) :=
    hcalm.concat (hcalm.concat_response h429 fun _ => h404) fun h' => absurd h' h429
  by_cases h200 : r.status = 200
  · rw [if_neg (not_not.mpr h200)]
    cases hdigest : contentDigest r with
    | some digest =>
      obtain ⟨hheader, hne⟩ := contentDigest_eq_some.mp hdigest
      refine iff_of_true (hhead.classified_iff.mpr (Or.inl ⟨digest, r, rfl, hne, ?_⟩)) hhead.regular
      exact ⟨lastManifest_concat _, hheader, h200⟩
    | none =>
      refine hhead.ends_send (fun r' => ?_) fun e log' hsettled => hsettled
      have hsettled := hhead.settled_getManifest (manifestUrl reference) token r'
      cases hdigest' : contentDigest r' with
      | some digest =>
        rw [hdigest'] at hsettled
        exact hsettled
      | none =>
        rw [hdigest'] at hsettled
        exact hsettled
  · rw [if_pos h200]
    exact hhead.settled_registryError _

/-- **An exchange is classified right** iff every reply it consumed is one the code expects. -/
theorem classified_iff_regular (library : Library) (peer : Peer) (now : Timestamp)
    (reference : ImageReference) :
    Classified library now (converse (resolveDigest library peer now reference)).1
        (converse (resolveDigest library peer now reference)).2
      ↔ ∀ x ∈ (converse (resolveDigest library peer now reference)).2, Regular library now x :=
  ends_iff_converse.mp (settled_resolveDigest reference)

/-- A library that knows ASCII words and no dates. -/
def asciiLibrary : Library where
  isWord c := c.isAlphanum || c == '_'
  parsedateToDatetime _ := .invalid

/-- A registry that answers the `HEAD` without a digest and throttles the `GET` that follows. -/
def throttledFallback : Peer := fun _ request =>
  match request with
  | .getManifest _ _ => .response ⟨429, some "60", none, none, .error "JSONDecodeError"⟩
  | _ => .response ⟨200, none, none, none, .error "JSONDecodeError"⟩

/-- The throttle is reported as an error to be retried. -/
theorem not_classified_throttledFallback :
    ¬ Classified asciiLibrary 0
        (converse (resolveDigest asciiLibrary throttledFallback 0
          (parseReference "nginx" "1.19"))).1
        (converse (resolveDigest asciiLibrary throttledFallback 0
          (parseReference "nginx" "1.19"))).2 := by
  intro h
  have hresult : (converse (resolveDigest asciiLibrary throttledFallback 0
      (parseReference "nginx" "1.19"))).1
        = .error (.registryError "registry did not return Docker-Content-Digest") := rfl
  obtain ⟨message, retryAfter, -, heq⟩ := h.throttled
    (.getManifest (manifestUrl (parseReference "nginx" "1.19")) none)
    ⟨429, some "60", none, none, .error "JSONDecodeError"⟩
    (List.mem_of_getElem? (i := 1) rfl) rfl
  rw [hresult] at heq
  cases heq

end Registry

end ContainerScanner
