import OtelFleet.Collector.TenantAuth
import OtelFleet.Data.Rows

/-! # Which keys the gateway accepts

Whatever the requests and the control plane do, an accepted key was answered to be
valid a short time ago: each cached result and each acceptance goes back to one call
for the same key.  A key that was rejected is not accepted again on account of an
older answer, provided that no older answer is cached after the rejection.
-/

namespace OtelFleet.Verified.KeyAcceptance

open Collector.TenantAuth Data Semantics

/-! ## One action -/

section

variable {env : Env} {step : Nat} {cache cache' : KeyCache} {req req' : Request} {action : Action}

inductive Acted (env : Env) (step : Nat) (cache : KeyCache) (req : Request) :
    Action → Request → KeyCache → Prop where
  | hit {outcome : Outcome} (phase : req.phase = .looking)
      (found : fromCache req.now (cache.lookup (env.hash req.key)) = some outcome) :
      Acted env step cache req .look (req.returns step none outcome) (cache.get (env.hash req.key)).2
  | missed (phase : req.phase = .looking) :
      Acted env step cache req .look { req with phase := .missed } (cache.get (env.hash req.key)).2
  | called (phase : req.phase = .missed) :
      Acted env step cache req .call { req with phase := .calling step } cache
  | answered {called : Nat} (phase : req.phase = .calling called) (reply : Reply) :
      Acted env step cache req (.answer reply) { req with phase := .answered ⟨called, step, reply⟩ } cache
  | failed {call : Validation} {err : String} (phase : req.phase = .answered call)
      (reply : call.reply = .error err) :
      Acted env step cache req .finish
        (req.returns step (some call) (withoutAnswer req.now err (cache.lookup (env.hash req.key))))
        (cache.get (env.hash req.key)).2
  | validated {call : Validation} {resp : Response} (phase : req.phase = .answered call)
      (reply : call.reply = .ok resp) (valid : resp.valid = true) :
      Acted env step cache req .finish (req.returns step (some call) (.ok (authData resp)))
        (cache.put (env.hash req.key)
          (.valid (authData resp) (req.now + effectiveTTL env.cfg resp) (req.now + env.cfg.staleIfError)))
  | rejected {call : Validation} {resp : Response} (phase : req.phase = .answered call)
      (reply : call.reply = .ok resp) (invalid : resp.valid = false) :
      Acted env step cache req .finish (req.returns step (some call) .invalidKey)
        (cache.put (env.hash req.key) (.invalid (req.now + env.cfg.negativeTTL)))

theorem acted_of_act (acted : req.act env step cache action = some (req', cache')) :
    Acted env step cache req action req' cache' := by
  unfold Request.act at acted
  split at acted
  · rename_i phase
    dsimp only at acted
    rw [Lru.get_fst] at acted
    split at acted
    · rename_i outcome found
      cases acted
      exact .hit phase found
    · cases acted
      exact .missed phase
  · rename_i phase
    cases acted
    exact .called phase
  · rename_i called reply phase
    cases acted
    exact .answered phase reply
  · rename_i call phase
    dsimp only at acted
    cases reply : call.reply with
    | error err =>
      rw [reply] at acted
      cases acted
      simp only [received, Lru.get_fst]
      exact .failed phase reply
    | ok resp =>
      rw [reply] at acted
      cases acted
      cases verdict : resp.valid with
      | true =>
        simp only [received, entryOf, verdict]
        exact .validated phase reply verdict
      | false =>
        simp only [received, entryOf, verdict]
        exact .rejected phase reply verdict
  · cases acted

end

/-! ## Moments -/

structure Timely (steps : Nat) (req : Request) : Prop where
  started : req.started < steps
  called : ∀ called, req.phase = .calling called → req.started < called ∧ called < steps
  answered : ∀ call, req.validation = some call →
    req.started < call.called ∧ call.called < call.answered ∧ call.answered < steps
  returned : ∀ step call outcome, req.phase = .returned step call outcome → step < steps ∧
    ∀ own, call = some own → own.answered < step

theorem Timely.later {steps : Nat} {req : Request} (timely : Timely steps req) : Timely (steps + 1) req where
  started := Nat.lt_succ_of_lt timely.started
  called called phase := ⟨(timely.called called phase).1, Nat.lt_succ_of_lt (timely.called called phase).2⟩
  answered call isCall := by
    obtain ⟨first, second, third⟩ := timely.answered call isCall
    exact ⟨first, second, Nat.lt_succ_of_lt third⟩
  returned step call outcome phase := by
    obtain ⟨before, order⟩ := timely.returned step call outcome phase
    exact ⟨Nat.lt_succ_of_lt before, order⟩

theorem timely_arrived (env : Env) (sources : List (String × List String)) (now : Int) (step : Nat) :
    Timely (step + 1) (arrived env sources now step) := by
  unfold arrived
  split
  · refine ⟨Nat.lt_succ_self step, fun _ phase => (nomatch phase), fun _ isCall => (nomatch isCall), ?_⟩
    intro at' call outcome phase
    cases phase
    exact ⟨Nat.lt_succ_self step, fun own isOwn => nomatch isOwn⟩
  · exact ⟨Nat.lt_succ_self step, fun _ phase => (nomatch phase), fun _ isCall => (nomatch isCall),
      fun _ _ _ phase => nomatch phase⟩

def rejection (req : Request) : Option (Nat × Validation) :=
  match req.phase with
  | .returned step (some call) _ =>
    match call.reply with
    | .ok resp => if resp.valid then none else some (step, call)
    | .error _ => none
  | _ => none

variable {call : Validation} {step : Nat}

theorem rejection_eq_some_iff {req : Request} :
    rejection req = some (step, call) ↔ (∃ outcome, req.phase = .returned step (some call) outcome) ∧
      ∃ resp, call.reply = .ok resp ∧ resp.valid = false := by
  unfold rejection
  constructor
  · intro rejected
    split at rejected
    · rename_i step' call' outcome phase
      split at rejected
      · rename_i resp reply
        split at rejected
        · cases rejected
        · rename_i invalid
          cases rejected
          exact ⟨⟨outcome, phase⟩, resp, reply, Bool.eq_false_iff.mpr invalid⟩
      · cases rejected
    · cases rejected
  · rintro ⟨⟨outcome, phase⟩, resp, reply, invalid⟩
    simp only [phase, reply, invalid, Bool.false_eq_true, if_false]

structure Replaces (steps : Nat) (req req' : Request) : Prop where
  key : req'.key = req.key
  now : req'.now = req.now
  started : req'.started = req.started
  validation : ∀ call, req.validation = some call → req'.validation = some call
  rejection : ∀ step call, rejection req' = some (step, call) → step = steps
  timely : Timely steps req → Timely (steps + 1) req'

variable {req' : Request}

section

variable {env : Env} {steps : Nat} {req : Request}

theorem replaces_on {phase : Phase} (fresh : req.validation = none) (pending : ∀ step call outcome, phase ≠ .returned step call outcome)
    (calling : ∀ called, phase = .calling called → called = steps)
    (answered : ∀ call, phase = .answered call → req.phase = .calling call.called ∧ call.answered = steps) :
    Replaces steps req { req with phase := phase } where
  key := rfl
  now := rfl
  started := rfl
  validation call isCall := by
    rw [fresh] at isCall
    cases isCall
  rejection step call rejected := by
    obtain ⟨⟨outcome, returned⟩, _⟩ := rejection_eq_some_iff.mp rejected
    exact absurd returned (pending _ _ _)
  timely timely := by
    constructor
    · exact Nat.lt_succ_of_lt timely.started
    · intro called isCalling
      rw [calling called isCalling]
      exact ⟨timely.started, Nat.lt_succ_self steps⟩
    · intro call isCall
      cases phase with
      | looking | missed | calling called => cases isCall
      | answered call' =>
        cases isCall
        obtain ⟨wasCalling, isNow⟩ := answered call rfl
        obtain ⟨first, second⟩ := timely.called _ wasCalling
        rw [isNow]
        exact ⟨first, second, Nat.lt_succ_self steps⟩
      | returned step call' outcome => exact absurd rfl (pending step call' outcome)
    · intro step call outcome returned
      exact absurd returned (pending step call outcome)

theorem replaces_returns {call : Option Validation} (same : req.validation = call) (outcome : Outcome) :
    Replaces steps req (req.returns steps call outcome) where
  key := rfl
  now := rfl
  started := rfl
  validation own isOwn := same ▸ isOwn
  rejection step own rejected := by
    obtain ⟨⟨_, returned⟩, _⟩ := rejection_eq_some_iff.mp rejected
    cases returned
    rfl
  timely timely := by
    constructor
    · exact Nat.lt_succ_of_lt timely.started
    · intro called phase
      cases phase
    · intro own isOwn
      obtain ⟨first, second, third⟩ := timely.answered own (same.trans isOwn)
      exact ⟨first, second, Nat.lt_succ_of_lt third⟩
    · intro step call' outcome' phase
      cases phase
      exact ⟨Nat.lt_succ_self steps, fun own isOwn => (timely.answered own (same.trans isOwn)).2.2⟩

theorem Acted.replaces {cache cache' : KeyCache} {action : Action}
    (acted : Acted env steps cache req action req' cache') : Replaces steps req req' := by
  cases acted with
  | hit phase found => exact replaces_returns (by simp only [Request.validation, phase]) _
  | missed phase =>
    apply replaces_on
    · simp only [Request.validation, phase]
    · exact fun _ _ _ same => nomatch same
    · exact fun _ same => nomatch same
    · exact fun _ same => nomatch same
  | called phase =>
    apply replaces_on
    · simp only [Request.validation, phase]
    · exact fun _ _ _ same => nomatch same
    · rintro called ⟨⟩
      rfl
    · exact fun _ same => nomatch same
  | answered phase reply =>
    apply replaces_on
    · simp only [Request.validation, phase]
    · exact fun _ _ _ same => nomatch same
    · exact fun _ same => nomatch same
    · rintro call ⟨⟩
      exact ⟨phase, rfl⟩
  | failed phase reply | validated phase reply valid | rejected phase reply invalid =>
    exact replaces_returns (by simp only [Request.validation, phase]) _

end

/-! ## Where a result comes from -/

/-- A call for a key with this hash was answered "valid". -/
structure Source (env : Env) (requests : List Request) (hash : String) (source : Request) (call : Validation)
    (resp : Response) : Prop where
  member : source ∈ requests
  hash : env.hash source.key = hash
  validation : source.validation = some call
  reply : call.reply = .ok resp
  valid : resp.valid = true

/-- The call was made after all answers "invalid" that were returned before `limit`. -/
def Newer (env : Env) (requests : List Request) (hash : String) (limit called : Nat) : Prop :=
  ∀ rejected ∈ requests, env.hash rejected.key = hash → ∀ step own, rejection rejected = some (step, own) →
    step < limit → own.answered < called

def Failed (own : Option Validation) : Prop := ∃ call err, own = some call ∧ call.reply = .error err

/-- The answer is not too old for the request. -/
structure Recent (env : Env) (req : Request) (own : Option Validation) (source : Request) : Prop where
  stale : Failed own → req.now < source.now + env.cfg.staleIfError
  fresh : ¬ Failed own → req.now < source.now + env.cfg.ttl ∨ req.now = source.now

def Accepted (env : Env) (ordered : Prop) (requests : List Request) (req : Request) (step : Nat)
    (own : Option Validation) (data : AuthData) : Prop :=
  ∃ source call resp, Source env requests (env.hash req.key) source call resp ∧ call.answered < step ∧
    data = authData resp ∧ Recent env req own source ∧
    (ordered → Newer env requests (env.hash req.key) req.started call.called)

def Cached (env : Env) (ordered : Prop) (requests : List Request) (steps : Nat) (hash : String) (data : AuthData)
    (freshUntil staleUntil : Int) : Prop :=
  ∃ source call resp, Source env requests hash source call resp ∧ data = authData resp ∧
    freshUntil = source.now + effectiveTTL env.cfg resp ∧ staleUntil = source.now + env.cfg.staleIfError ∧
    (ordered → Newer env requests hash steps call.called)

/-- Everything that is cached or was accepted goes back to a call.  If the answers are
    cached in order, the call is newer than the rejections. -/
structure Backed (env : Env) (ordered : Prop) (gateway : Gateway) : Prop where
  timely : ∀ req ∈ gateway.requests, Timely gateway.steps req
  cached : ∀ hash data freshUntil staleUntil,
    gateway.cache.lookup hash = some (.valid data freshUntil staleUntil) →
      Cached env ordered gateway.requests gateway.steps hash data freshUntil staleUntil
  accepted : ∀ req ∈ gateway.requests, ∀ step own outcome data, req.phase = .returned step own outcome →
    outcome.accepted = some data → Accepted env ordered gateway.requests req step own data

variable {data : AuthData} {resp : Response}

section

variable {env : Env} {ordered : Prop} {requests requests' : List Request}

def Grows (requests requests' : List Request) : Prop :=
  ∀ req ∈ requests, ∃ req' ∈ requests', req'.key = req.key ∧ req'.now = req.now ∧
    ∀ call, req.validation = some call → req'.validation = some call

variable {hash : String}

theorem Source.grow {source : Request} (grows : Grows requests requests')
    (isSource : Source env requests hash source call resp) :
    ∃ source', Source env requests' hash source' call resp ∧ source'.now = source.now := by
  obtain ⟨source', mem, key, now, validation⟩ := grows source isSource.member
  exact ⟨source', ⟨mem, key ▸ isSource.hash, validation call isSource.validation, isSource.reply, isSource.valid⟩, now⟩

def NoNews (env : Env) (requests requests' : List Request) (hash : String) (limit limit' : Nat) : Prop :=
  ∀ rejected ∈ requests', env.hash rejected.key = hash → ∀ step own, rejection rejected = some (step, own) →
    step < limit' → rejected ∈ requests ∧ step < limit

theorem Newer.grow {limit limit' called : Nat} (noNews : NoNews env requests requests' hash limit limit')
    (newer : Newer env requests hash limit called) : Newer env requests' hash limit' called := by
  intro rejected mem isHash step own isRejection before
  obtain ⟨old, wasBefore⟩ := noNews rejected mem isHash step own isRejection before
  exact newer rejected old isHash step own isRejection wasBefore

theorem Accepted.grow {req : Request} {own : Option Validation} (grows : Grows requests requests')
    (noNews : NoNews env requests requests' (env.hash req.key) req.started req.started)
    (accepted : Accepted env ordered requests req step own data) :
    Accepted env ordered requests' req step own data := by
  obtain ⟨source, call, resp, isSource, before, isData, recent, newer⟩ := accepted
  obtain ⟨source', isSource', now⟩ := isSource.grow grows
  refine ⟨source', call, resp, isSource', before, isData, ?_, fun inOrder => (newer inOrder).grow noNews⟩
  exact ⟨fun failed => now ▸ recent.stale failed, fun answered => now ▸ recent.fresh answered⟩

theorem Cached.grow {steps : Nat} {freshUntil staleUntil : Int} (grows : Grows requests requests')
    (noNews : NoNews env requests requests' hash steps (steps + 1))
    (cached : Cached env ordered requests steps hash data freshUntil staleUntil) :
    Cached env ordered requests' (steps + 1) hash data freshUntil staleUntil := by
  obtain ⟨source, call, resp, isSource, isData, isFresh, isStale, newer⟩ := cached
  obtain ⟨source', isSource', now⟩ := isSource.grow grows
  exact ⟨source', call, resp, isSource', isData, now ▸ isFresh, now ▸ isStale, fun inOrder => (newer inOrder).grow noNews⟩

theorem grows_set {steps i : Nat} {req req' : Request} (found : requests[i]? = some req)
    (replaces : Replaces steps req req') : Grows requests (requests.set i req') := by
  intro other mem
  rcases Data.mem_set_of_mem found req' mem with rfl | stays
  · exact ⟨req', Data.mem_set_self found, replaces.key, replaces.now, replaces.validation⟩
  · exact ⟨other, stays, rfl, rfl, fun _ isCall => isCall⟩

theorem noNews_new {steps limit limit' : Nat}
    (members : ∀ req ∈ requests', req ∈ requests ∨ req = req')
    (timely : ∀ req ∈ requests, Timely steps req) (within : limit' ≤ limit ∨ limit = steps)
    (silent : ∀ step own, env.hash req'.key = hash → rejection req' = some (step, own) → limit' ≤ step) :
    NoNews env requests requests' hash limit limit' := by
  intro rejected mem isHash step own isRejection before
  rcases members rejected mem with old | isNew
  · obtain ⟨⟨outcome, phase⟩, _⟩ := rejection_eq_some_iff.mp isRejection
    have past := ((timely rejected old).returned _ _ _ phase).1
    refine ⟨old, ?_⟩
    omega
  · subst isNew
    exact absurd before (Nat.not_lt.mpr (silent step own isHash isRejection))

end

/-! ## Each step -/

section

variable {env : Env} {ordered : Prop} {gateway : Gateway}

/-- The request's call was overtaken: an answer that was produced after the call was
    made has rejected the key already. -/
def Overtaken (env : Env) (gateway : Gateway) (req : Request) (call : Validation) : Prop :=
  ∃ rejected ∈ gateway.requests, env.hash rejected.key = env.hash req.key ∧
    ∃ own ∈ rejection rejected, call.called ≤ own.2.answered

def validReply (call : Validation) : Bool :=
  match call.reply with
  | .ok resp => resp.valid
  | .error _ => false

/-- No answer "valid" is cached whose call was overtaken. -/
def InOrder (env : Env) (gateway : Gateway) : Event → Prop
  | .act i .finish => ∀ req ∈ gateway.requests[i]?, ∀ call ∈ req.validation, validReply call = true →
      ¬ Overtaken env gateway req call
  | _ => True

instance (gateway : Gateway) (req : Request) (call : Validation) : Decidable (Overtaken env gateway req call) :=
  inferInstanceAs (Decidable (∃ rejected ∈ gateway.requests, _ ∧ ∃ own ∈ rejection rejected, _))

instance (gateway : Gateway) : (event : Event) → Decidable (InOrder env gateway event)
  | .act i .finish => inferInstanceAs (Decidable (∀ req ∈ gateway.requests[i]?, ∀ call ∈ req.validation,
      validReply call = true → ¬ Overtaken env gateway req call))
  | .arrive _ _ | .act _ .look | .act _ .call | .act _ (.answer _) => isTrue trivial

theorem backed_idle : Backed env ordered (Gateway.idle env) where
  timely _ mem := nomatch mem
  cached _ _ _ _ found := nomatch found
  accepted _ mem := nomatch mem

structure Advanced (gateway : Gateway) (requests' : List Request) (req' : Request) : Prop where
  grows : Grows gateway.requests requests'
  members : ∀ req ∈ requests', req ∈ gateway.requests ∨ req = req'
  timely : Timely (gateway.steps + 1) req'
  rejection : ∀ step own, rejection req' = some (step, own) → step = gateway.steps

theorem Backed.advance {requests' : List Request} {cache' : KeyCache}
    (backed : Backed env ordered gateway) (advanced : Advanced gateway requests' req')
    (cached : ∀ hash data freshUntil staleUntil, cache'.lookup hash = some (.valid data freshUntil staleUntil) →
      (gateway.cache.lookup hash = some (.valid data freshUntil staleUntil) ∧
        (env.hash req'.key = hash → rejection req' = none)) ∨
      Cached env ordered requests' (gateway.steps + 1) hash data freshUntil staleUntil)
    (accepted : ∀ step own outcome data, req'.phase = .returned step own outcome → outcome.accepted = some data →
      Accepted env ordered requests' req' step own data) :
    Backed env ordered ⟨cache', requests', gateway.steps + 1⟩ where
  timely req mem := by
    rcases advanced.members req mem with old | rfl
    · exact (backed.timely req old).later
    · exact advanced.timely
  cached hash data freshUntil staleUntil found := by
    rcases cached hash data freshUntil staleUntil found with ⟨old, noRejection⟩ | new
    · apply (backed.cached hash data freshUntil staleUntil old).grow advanced.grows
      apply noNews_new advanced.members backed.timely (Or.inr rfl)
      intro step own isHash isRejection
      rw [noRejection isHash] at isRejection
      cases isRejection
    · exact new
  accepted req mem step own outcome data phase isAccepted := by
    rcases advanced.members req mem with old | rfl
    · apply (backed.accepted req old step own outcome data phase isAccepted).grow advanced.grows
      apply noNews_new advanced.members backed.timely (Or.inl le_rfl)
      intro step' own' _ isRejection
      rw [advanced.rejection step' own' isRejection]
      exact Nat.le_of_lt (backed.timely req old).started
    · exact accepted step own outcome data phase isAccepted

theorem backed_arrive (backed : Backed env ordered gateway) (sources : List (String × List String)) (now : Int) :
    Backed env ordered ⟨gateway.cache, gateway.requests ++ [arrived env sources now gateway.steps], gateway.steps + 1⟩ := by
  -- A request that has just come was neither rejected nor accepted.
  have isNew : ∀ step own outcome, (arrived env sources now gateway.steps).phase = .returned step own outcome →
      own = none ∧ outcome = .noKey := by
    intro step own outcome phase
    unfold arrived at phase
    split at phase
    · cases phase
      exact ⟨rfl, rfl⟩
    · cases phase
  have noRejection : ∀ step own, rejection (arrived env sources now gateway.steps) ≠ some (step, own) := by
    intro step own isRejection
    obtain ⟨⟨outcome, phase⟩, _⟩ := rejection_eq_some_iff.mp isRejection
    cases (isNew _ _ _ phase).1
  have advanced : Advanced gateway (gateway.requests ++ [arrived env sources now gateway.steps])
      (arrived env sources now gateway.steps) := by
    constructor
    · exact fun req mem => ⟨req, List.mem_append_left _ mem, rfl, rfl, fun _ isCall => isCall⟩
    · intro req mem
      simpa using mem
    · exact timely_arrived env sources now gateway.steps
    · exact fun step own isRejection => absurd isRejection (noRejection step own)
  apply backed.advance advanced
  · intro hash data freshUntil staleUntil found
    exact Or.inl ⟨found, fun _ => Option.eq_none_iff_forall_ne_some.mpr fun own => noRejection own.1 own.2⟩
  · intro step own outcome data phase isAccepted
    rw [(isNew step own outcome phase).2] at isAccepted
    cases isAccepted

theorem effectiveTTL_le (cfg : CacheConfig) (resp : Response) : effectiveTTL cfg resp ≤ cfg.ttl := by
  unfold effectiveTTL
  dsimp only
  split
  · rename_i shorter
    exact Int.le_of_lt shorter.2
  · exact Int.le_refl _

theorem Cached.accepts {requests : List Request} {steps : Nat} {req : Request} {own : Option Validation}
    {data : AuthData} {freshUntil staleUntil : Int} (timely : ∀ req ∈ requests, Timely steps req)
    (started : req.started ≤ steps)
    (cached : Cached env ordered requests steps (env.hash req.key) data freshUntil staleUntil)
    (stale : Failed own → req.now < staleUntil) (fresh : ¬ Failed own → req.now < freshUntil) :
    Accepted env ordered requests req steps own data := by
  obtain ⟨source, call, resp, isSource, isData, isFresh, isStale, newer⟩ := cached
  have answered := ((timely source isSource.member).answered call isSource.validation).2.2
  refine ⟨source, call, resp, isSource, answered, isData, ⟨?_, ?_⟩, ?_⟩
  · intro failed
    rw [← isStale]
    exact stale failed
  · intro answered
    have inTime := fresh answered
    have capped := effectiveTTL_le env.cfg resp
    omega
  · intro inOrder rejected mem isHash step own isRejection before
    exact newer inOrder rejected mem isHash step own isRejection (Nat.lt_of_lt_of_le before started)

variable {entry : Option CacheEntry}

theorem fromCache_accepted {now : Int} {outcome : Outcome} (found : fromCache now entry = some outcome)
    (isAccepted : outcome.accepted = some data) :
    ∃ freshUntil staleUntil, entry = some (.valid data freshUntil staleUntil) ∧ now < freshUntil := by
  unfold fromCache at found
  split at found
  · rename_i data' freshUntil staleUntil
    split at found
    · rename_i isFresh
      cases found
      cases isAccepted
      exact ⟨freshUntil, staleUntil, rfl, isFresh⟩
    · cases found
  · split at found
    · cases found
      cases isAccepted
    · cases found
  · cases found

theorem withoutAnswer_accepted {now : Int} {err : String}
    (isAccepted : (withoutAnswer now err entry).accepted = some data) :
    ∃ freshUntil staleUntil, entry = some (.valid data freshUntil staleUntil) ∧ now < staleUntil := by
  unfold withoutAnswer at isAccepted
  split at isAccepted
  · rename_i data' freshUntil staleUntil
    split at isAccepted
    · rename_i notStale
      cases isAccepted
      exact ⟨freshUntil, staleUntil, rfl, notStale⟩
    · cases isAccepted
  · cases isAccepted

section

variable {i : Nat} {req req' : Request} {action : Action} {cache' : KeyCache}

section

variable (backed : Backed env ordered gateway)
include backed

theorem Acted.advanced (found : gateway.requests[i]? = some req)
    (acted : Acted env gateway.steps gateway.cache req action req' cache') :
    Advanced gateway (gateway.requests.set i req') req' where
  grows := grows_set found acted.replaces
  members _ mem := List.mem_or_eq_of_mem_set mem
  timely := acted.replaces.timely (backed.timely req (List.mem_of_getElem? found))
  rejection := acted.replaces.rejection

theorem Backed.look (advanced : Advanced gateway (gateway.requests.set i req') req')
    (same : ∀ hash, cache'.lookup hash = gateway.cache.lookup hash) (noRejection : rejection req' = none)
    (accepted : ∀ step own outcome data, req'.phase = .returned step own outcome → outcome.accepted = some data →
      Accepted env ordered gateway.requests req' step own data) :
    Backed env ordered ⟨cache', gateway.requests.set i req', gateway.steps + 1⟩ := by
  apply backed.advance advanced
  · intro hash data freshUntil staleUntil isCached
    rw [same] at isCached
    exact Or.inl ⟨isCached, fun _ => noRejection⟩
  · intro step own outcome data phase isAccepted
    apply (accepted step own outcome data phase isAccepted).grow advanced.grows
    apply noNews_new advanced.members backed.timely (Or.inl le_rfl)
    intro _ _ _ isRejection
    rw [noRejection] at isRejection
    cases isRejection

theorem backed_validated (found : gateway.requests[i]? = some req) (phase : req.phase = .answered call)
    (reply : call.reply = .ok resp) (valid : resp.valid = true)
    (inOrder : ordered → ¬ Overtaken env gateway req call)
    (isReturn : req' = req.returns gateway.steps (some call) (.ok (authData resp)))
    (advanced : Advanced gateway (gateway.requests.set i req') req') :
    Backed env ordered
      ⟨gateway.cache.put (env.hash req.key)
          (.valid (authData resp) (req.now + effectiveTTL env.cfg resp) (req.now + env.cfg.staleIfError)),
        gateway.requests.set i req', gateway.steps + 1⟩ := by
  have mem : req ∈ gateway.requests := List.mem_of_getElem? found
  have isCall : req.validation = some call := by simp only [Request.validation, phase]
  obtain ⟨started, _, answered⟩ := (backed.timely req mem).answered call isCall
  have source : Source env (gateway.requests.set i req') (env.hash req.key) req' call resp := by
    rw [isReturn]
    exact ⟨Data.mem_set_self found, rfl, rfl, reply, valid⟩
  have noRejection : rejection req' = none := by
    simp [isReturn, rejection, Request.returns, reply, valid]
  subst isReturn
  apply backed.advance advanced
  · intro hash data freshUntil staleUntil isCached
    rcases Lru.lookup_of_put isCached with ⟨rfl, isEntry⟩ | ⟨other, old⟩
    · cases isEntry
      refine Or.inr ⟨_, call, resp, source, rfl, rfl, rfl, fun isOrdered => ?_⟩
      -- No rejection has overtaken the call, so it is newer than all of them.
      intro rejected isMember isHash step own isRejection _
      rcases advanced.members rejected isMember with isOld | isNew
      · by_contra overtakes
        exact inOrder isOrdered ⟨rejected, isOld, isHash, (step, own), isRejection, Nat.not_lt.mp overtakes⟩
      · rw [isNew, noRejection] at isRejection
        cases isRejection
    · exact Or.inl ⟨old, fun _ => noRejection⟩
  · intro step own outcome data isReturned isAccepted
    cases isReturned
    cases isAccepted
    refine ⟨_, call, resp, source, answered, rfl, ⟨?_, fun _ => Or.inr rfl⟩, fun _ => ?_⟩
    · rintro ⟨own, err, isOwn, failed⟩
      cases isOwn
      rw [reply] at failed
      cases failed
    · -- The call was made when the request was there already.
      intro rejected isMember _ step own isRejection before
      rcases advanced.members rejected isMember with isOld | isNew
      · obtain ⟨⟨_, returned⟩, _⟩ := rejection_eq_some_iff.mp isRejection
        have order := ((backed.timely rejected isOld).returned _ _ _ returned).2 own rfl
        have isBefore : step < req.started := before
        omega
      · rw [isNew, noRejection] at isRejection
        cases isRejection

theorem backed_rejected (isReturn : req' = req.returns gateway.steps (some call) .invalidKey)
    (advanced : Advanced gateway (gateway.requests.set i req') req') :
    Backed env ordered
      ⟨gateway.cache.put (env.hash req.key) (.invalid (req.now + env.cfg.negativeTTL)),
        gateway.requests.set i req', gateway.steps + 1⟩ := by
  subst isReturn
  apply backed.advance advanced
  · intro hash data freshUntil staleUntil isCached
    rcases Lru.lookup_of_put isCached with ⟨_, isEntry⟩ | ⟨other, old⟩
    · cases isEntry
    · exact Or.inl ⟨old, fun same => absurd same.symm other⟩
  · intro step own outcome data isReturned isAccepted
    cases isReturned
    cases isAccepted

theorem backed_act (found : gateway.requests[i]? = some req)
    (acted : Acted env gateway.steps gateway.cache req action req' cache')
    (inOrder : ordered → InOrder env gateway (.act i action)) :
    Backed env ordered ⟨cache', gateway.requests.set i req', gateway.steps + 1⟩ := by
  have advanced := acted.advanced backed found
  have started := Nat.le_of_lt (backed.timely req (List.mem_of_getElem? found)).started
  cases acted with
  | hit phase isHit =>
    apply backed.look advanced (Lru.lookup_get _ _) rfl
    intro step own outcome data isReturned isAccepted
    cases isReturned
    obtain ⟨freshUntil, staleUntil, entry, isFresh⟩ := fromCache_accepted isHit isAccepted
    refine @Cached.accepts env ordered _ _ (req.returns _ _ _) _ _ _ _ backed.timely started
      (backed.cached _ _ _ _ entry) ?_ fun _ => isFresh
    rintro ⟨call, err, isOwn, _⟩
    cases isOwn
  | missed phase => exact backed.look advanced (Lru.lookup_get _ _) rfl fun _ _ _ _ same => nomatch same
  | called phase | answered phase reply => exact backed.look advanced (fun _ => rfl) rfl fun _ _ _ _ same => nomatch same
  | @failed call err phase reply =>
    apply backed.look advanced (Lru.lookup_get _ _)
    · simp [rejection, Request.returns, reply]
    · intro step own outcome data isReturned isAccepted
      cases isReturned
      obtain ⟨freshUntil, staleUntil, entry, notStale⟩ := withoutAnswer_accepted isAccepted
      refine @Cached.accepts env ordered _ _ (req.returns _ _ _) _ _ _ _ backed.timely started
        (backed.cached _ _ _ _ entry) (fun _ => notStale) ?_
      exact fun answered => absurd ⟨call, err, rfl, reply⟩ answered
  | @validated call resp phase reply valid =>
    have isCall : req.validation = some call := by simp only [Request.validation, phase]
    apply backed_validated backed found phase reply valid _ rfl advanced
    intro isOrdered
    exact inOrder isOrdered req found call isCall (by simp only [validReply, reply, valid])
  | rejected phase reply invalid => exact backed_rejected backed rfl advanced

end

end

theorem backed_step {event : Event} {next : Gateway} (backed : Backed env ordered gateway)
    (step : Gateway.Step env gateway event next) (inOrder : ordered → InOrder env gateway event) :
    Backed env ordered next := by
  cases event with
  | arrive sources now =>
    cases step
    exact backed_arrive backed sources now
  | act i action =>
    obtain ⟨req, found, performed⟩ := Option.bind_eq_some_iff.mp step
    obtain ⟨⟨req', cache'⟩, acted, isNext⟩ := Option.bind_eq_some_iff.mp performed
    cases isNext
    exact backed_act backed found (acted_of_act acted) inOrder

end

/-! ## Whole runs -/

variable {env : Env} {gateway : Gateway} {events : List Event}

/-- SHA-256 does not collide on the keys that were used. -/
def Distinct (env : Env) (gateway : Gateway) : Prop :=
  ∀ first ∈ gateway.requests, ∀ second ∈ gateway.requests,
    env.hash first.key = env.hash second.key → first.key = second.key

/-- An accepted key was answered to be valid recently. -/
theorem accepted_recently_valid (run : Run (Gateway.Step env) (Gateway.idle env) events gateway)
    (distinct : Distinct env gateway) {req : Request} (mem : req ∈ gateway.requests) {step : Nat}
    {own : Option Validation} {outcome : Outcome} (returned : req.phase = .returned step own outcome)
    {data : AuthData} (isAccepted : outcome.accepted = some data) :
    ∃ source ∈ gateway.requests, ∃ call resp, source.key = req.key ∧ source.validation = some call ∧
      call.reply = .ok resp ∧ resp.valid = true ∧ call.answered < step ∧ data = authData resp ∧
      Recent env req own source := by
  have backed : Backed env False gateway := by
    apply run.invariant
    · exact fun state event next taken holds => backed_step holds taken fun never => never.elim
    · exact backed_idle
  obtain ⟨source, call, resp, isSource, before, isData, recent, _⟩ :=
    backed.accepted req mem step own outcome data returned isAccepted
  exact ⟨source, isSource.member, call, resp, distinct source isSource.member req mem isSource.hash,
    isSource.validation, isSource.reply, isSource.valid, before, isData, recent⟩

/-- A rejected key is accepted only on account of a call that was made after the
    answer that rejected it. -/
def RejectionsLast (gateway : Gateway) : Prop :=
  ∀ rejected ∈ gateway.requests, ∀ later ∈ gateway.requests, later.key = rejected.key →
    ∀ step call, rejection rejected = some (step, call) → step < later.started →
    ∀ step' own outcome data, later.phase = .returned step' own outcome → outcome.accepted = some data →
      ∃ source ∈ gateway.requests, ∃ call' resp, source.key = later.key ∧ source.validation = some call' ∧
        call'.reply = .ok resp ∧ resp.valid = true ∧ call'.answered < step' ∧ call.answered < call'.called

theorem rejections_last (run : Run (Restricted (InOrder env) (Gateway.Step env)) (Gateway.idle env) events gateway)
    (distinct : Distinct env gateway) : RejectionsLast gateway := by
  have backed : Backed env True gateway := by
    apply run.invariant
    · exact fun state event next taken holds => backed_step holds taken.2 fun _ => taken.1
    · exact backed_idle
  intro rejected isMember later mem sameKey step call isRejection after step' own outcome data returned isAccepted
  obtain ⟨source, call', resp, isSource, before, _, _, newer⟩ :=
    backed.accepted later mem step' own outcome data returned isAccepted
  exact ⟨source, isSource.member, call', resp, distinct source isSource.member later mem isSource.hash,
    isSource.validation, isSource.reply, isSource.valid, before,
    newer trivial rejected isMember (by rw [sameKey]) step call isRejection after⟩

/-! ### A small gateway -/

def smallEnv : Env where
  text := .ascii
  hash := id
  cfg := {}

def withKey : List (String × List String) := [("X-Api-Key", ["k"])]

def validResponse : Response := { valid := true, clientID := "acme", customerID := "1" }

def invalidResponse : Response := { valid := false }

def untilAnswer (req : Nat) (now : Int) (reply : Reply) : List Event :=
  [.arrive withKey now, .act req .look, .act req .call, .act req (.answer reply)]

def askedTwice : List Event :=
  untilAnswer 0 0 (.ok validResponse) ++ [.act 0 .finish, .arrive withKey 1, .act 1 .look]

def afterAskedTwice : Gateway :=
  (performAll (Gateway.perform smallEnv) (Gateway.idle smallEnv) askedTwice).getD (Gateway.idle smallEnv)

def cacheHit : Request := ⟨"k", 1, 5, .returned 6 none (.ok (authData validResponse))⟩

theorem cacheHit_recently_valid : cacheHit ∈ afterAskedTwice.requests ∧
    ∃ source ∈ afterAskedTwice.requests, ∃ call resp, source.key = cacheHit.key ∧ source.validation = some call ∧
      call.reply = .ok resp ∧ resp.valid = true ∧ call.answered < 6 ∧ authData validResponse = authData resp ∧
      Recent smallEnv cacheHit none source := by
  have run : Run (Gateway.Step smallEnv) (Gateway.idle smallEnv) askedTwice afterAskedTwice := run_of_performAll rfl
  have mem : cacheHit ∈ afterAskedTwice.requests :=
    List.mem_iff_getElem?.mpr ⟨1, rfl⟩
  exact ⟨mem, accepted_recently_valid run (fun _ _ _ _ same => same) mem rfl rfl⟩

/-- A key is rejected, and is valid again when it is asked for after the rejection
    has expired. -/
def restored : List Event :=
  untilAnswer 0 0 (.ok invalidResponse) ++ [.act 0 .finish] ++
    untilAnswer 1 6000000000 (.ok validResponse) ++ [.act 1 .finish]

def afterRestored : Gateway :=
  (performAll (Gateway.perform smallEnv) (Gateway.idle smallEnv) restored).getD (Gateway.idle smallEnv)

theorem restored_rejections_last : (∃ rejected ∈ afterRestored.requests, (rejection rejected).isSome) ∧
    RejectionsLast afterRestored := by
  have run : Run (Restricted (InOrder smallEnv) (Gateway.Step smallEnv)) (Gateway.idle smallEnv) restored afterRestored :=
    restricted_of_performAll rfl
  exact ⟨⟨_, List.mem_cons_self, rfl⟩, rejections_last run fun _ _ _ _ same => same⟩

/-- The key is revoked while two calls are under way; the older answer comes last. -/
def overtaken : List Event :=
  untilAnswer 0 0 (.ok validResponse) ++ untilAnswer 1 0 (.ok invalidResponse) ++
    [.act 1 .finish, .act 0 .finish, .arrive withKey 1, .act 2 .look]

def afterOvertaken : Gateway :=
  (performAll (Gateway.perform smallEnv) (Gateway.idle smallEnv) overtaken).getD (Gateway.idle smallEnv)

/-- The revoked key is accepted once more. -/
theorem revoked_key_accepted :
    Run (Gateway.Step smallEnv) (Gateway.idle smallEnv) overtaken afterOvertaken ∧ Distinct smallEnv afterOvertaken ∧
      ¬ RejectionsLast afterOvertaken := by
  refine ⟨run_of_performAll rfl, fun _ _ _ _ same => same, fun lasts => ?_⟩
  obtain ⟨source, mem, call, resp, _, isCall, _, _, _, newer⟩ :=
    lasts _ (List.mem_iff_getElem?.mpr ⟨1, rfl⟩) _ (List.mem_iff_getElem?.mpr ⟨2, rfl⟩) rfl 8 ⟨6, 7, .ok invalidResponse⟩ rfl
      (by decide) 11 none _ (authData validResponse) rfl rfl
  -- The two calls that were ever made are not newer than the answer.
  have older : ∀ req ∈ afterOvertaken.requests, ∀ call ∈ req.validation, call.called < 7 := by decide
  have isOlder := older source mem call isCall
  have isNewer : 7 < call.called := newer
  omega

end OtelFleet.Verified.KeyAcceptance
