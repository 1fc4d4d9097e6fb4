import OtelFleet.Auth.LoginState
import OtelFleet.Semantics.Run

/-! # Which login a callback finishes

The state a callback has to present is the one of the latest start of the session, whatever
provider that start was of.  It is accepted once, since every callback empties the slot.
The verifier that OpenID Connect sends along is the one of that start, unless the start was
GitHub's, which leaves the verifier of an earlier start where it is.
-/

namespace OtelFleet.Verified.LoginStates

open Auth Semantics

/-- The random values of a start are new. -/
def Fresh (session : LoginSession) : LoginEvent → Prop
  | .start _ _ state verifier => state ≠ "" ∧ verifier ≠ "" ∧ (∀ issue ∈ session.issued, issue.state ≠ state) ∧
      ∀ issue ∈ session.issued, issue.verifier ≠ some verifier
  | .callback _ _ _ => True

/-! ## Callbacks -/

variable {query : CallbackQuery}

theorem state_of_bind {invalid : String} {slots : LoginSlots} {exchange : CodeExchange}
    {finish : String → Except Refusal CodeExchange} (passed : callbackCode invalid query slots >>= finish = .ok exchange) :
    slots.state ≠ "" ∧ query.state = slots.state ∧ ∃ code, finish code = .ok exchange := by
  unfold callbackCode at passed
  split at passed
  · cases passed
  · next matches' =>
    rw [not_or, not_not] at matches'
    refine ⟨matches'.1, matches'.2, query.code, ?_⟩
    split at passed
    · cases passed
    · split at passed
      · cases passed
      · exact passed

theorem presented_of_ok {info : ProviderInfo} {discovered : Bool} {slots after : LoginSlots} {exchange : CodeExchange}
    (accepted : loginCallback info discovered query slots = (after, .ok exchange)) :
    slots.state ≠ "" ∧ query.state = slots.state ∧ ∀ verifier ∈ exchange.verifier, verifier = slots.verifier := by
  unfold loginCallback at accepted
  generalize info.type = type at accepted
  cases type with
  | github =>
    obtain ⟨set, same, code, isExchange⟩ := state_of_bind (Prod.mk.inj accepted).2
    cases isExchange
    exact ⟨set, same, by simp⟩
  | saml => simp at accepted
  | google | microsoft | oidc =>
    obtain ⟨set, same, code, isExchange⟩ := state_of_bind (Prod.mk.inj accepted).2
    split at isExchange
    · cases isExchange
      exact ⟨set, same, by simp⟩
    · cases isExchange

variable (info : ProviderInfo)

theorem slots_of_callback (discovered : Bool) (query : CallbackQuery) (slots : LoginSlots) :
    let after := (loginCallback info discovered query slots).1
    (after.state = "" ∨ (after = slots ∧ info.type = .saml)) ∧ (after.verifier = slots.verifier ∨ after.verifier = "") := by
  unfold loginCallback
  cases info.type with
  | github => exact ⟨Or.inl rfl, Or.inl rfl⟩
  | saml => exact ⟨Or.inr ⟨rfl, rfl⟩, Or.inl rfl⟩
  | google | microsoft | oidc => exact ⟨Or.inl rfl, Or.inr rfl⟩

/-! ## Sessions -/

/-- How the slots stand to what the session has issued and accepted. -/
structure Kept (session : LoginSession) : Prop where
  /-- A state in the slot is the one of the latest start, and was not accepted yet. -/
  latest : session.slots.state = "" ∨ ∃ issue earlier, session.issued = issue :: earlier ∧
    issue.state = session.slots.state ∧ (∀ accepted ∈ session.accepted, accepted.state ≠ session.slots.state) ∧
    ∀ verifier ∈ issue.verifier, session.slots.verifier = verifier
  /-- A verifier in the slot was made by a start. -/
  made : session.slots.verifier = "" ∨ ∃ issue ∈ session.issued, issue.verifier = some session.slots.verifier
  /-- Only issued states were accepted. -/
  known : ∀ accepted ∈ session.accepted, ∃ issue ∈ session.issued, issue.state = accepted.state

variable {session : LoginSession}

theorem Kept.started (kept : Kept session) {issue : IssuedState} {verifier : String}
    (unused : ∀ other ∈ session.issued, other.state ≠ issue.state) (own : ∀ made ∈ issue.verifier, verifier = made)
    (known : verifier = "" ∨ issue.verifier = some verifier ∨ ∃ other ∈ session.issued, other.verifier = some verifier) :
    Kept { session with slots := ⟨issue.state, verifier⟩, issued := issue :: session.issued } where
  latest := by
    refine Or.inr ⟨issue, session.issued, rfl, rfl, fun accepted mem same => ?_, own⟩
    obtain ⟨other, isIssued, isState⟩ := kept.known accepted mem
    exact unused other isIssued (isState.trans same)
  made := by
    rcases known with none | mine | ⟨other, isIssued, isVerifier⟩
    · exact Or.inl none
    · exact Or.inr ⟨issue, List.mem_cons_self, mine⟩
    · exact Or.inr ⟨other, List.mem_cons_of_mem _ isIssued, isVerifier⟩
  known := by
    intro accepted mem
    obtain ⟨other, isIssued, isState⟩ := kept.known accepted mem
    exact ⟨other, List.mem_cons_of_mem _ isIssued, isState⟩

theorem Kept.start (kept : Kept session) {info : ProviderInfo} {discovered : Bool} {state verifier : String}
    (fresh : Fresh session (.start info discovered state verifier)) :
    Kept (session.perform (.start info discovered state verifier)) := by
  obtain ⟨_, _, unused, _⟩ := fresh
  have oidc : Kept { session with
      slots := (oidcStart info discovered state verifier session.slots).1
      issued := (oidcStart info discovered state verifier session.slots).2.toList ++ session.issued } := by
    cases discovered with
    | false => exact kept
    | true =>
      exact @Kept.started _ kept ⟨info, state, some verifier⟩ verifier unused (fun _ made => Option.mem_some.mp made)
        (Or.inr (Or.inl rfl))
  have performed : session.perform (.start info discovered state verifier) = { session with
      slots := (startLogin info discovered state verifier session.slots).1
      issued := (startLogin info discovered state verifier session.slots).2.toList ++ session.issued } := rfl
  rw [performed, startLogin]
  cases info.type with
  | github =>
    refine @Kept.started _ kept ⟨info, state, none⟩ session.slots.verifier unused (fun _ made => nomatch made) ?_
    cases kept.made with
    | inl none => exact Or.inl none
    | inr made => exact Or.inr (Or.inr made)
  | saml => exact kept
  | google | microsoft | oidc => exact oidc

theorem Kept.called (kept : Kept session) {slots : LoginSlots} {accepted : List AcceptedState}
    (popped : slots.state = "" ∨ (slots = session.slots ∧ accepted = []))
    (verifier : slots.verifier = session.slots.verifier ∨ slots.verifier = "")
    (known : ∀ state ∈ accepted, ∃ issue ∈ session.issued, issue.state = state.state) :
    Kept { session with slots, accepted := accepted ++ session.accepted } where
  latest := by
    rcases popped with empty | ⟨rfl, rfl⟩
    · exact Or.inl empty
    · exact kept.latest
  made := by
    rcases verifier with same | empty
    · dsimp only
      rw [same]
      exact kept.made
    · exact Or.inl empty
  known := List.forall_mem_append.mpr ⟨known, kept.known⟩

theorem Kept.callback (kept : Kept session) (info : ProviderInfo) (discovered : Bool) (query : CallbackQuery) :
    Kept (session.perform (.callback info discovered query)) := by
  obtain ⟨popped, verifier⟩ := slots_of_callback info discovered query session.slots
  unfold LoginSession.perform
  dsimp only
  cases outcome : loginCallback info discovered query session.slots with
  | mk slots res =>
    rw [outcome] at popped verifier
    cases res with
    | error refusal => exact kept.called (popped.imp_right fun same => ⟨same.1, rfl⟩) verifier (fun _ none => nomatch none)
    | ok exchange =>
      obtain ⟨set, presented, _⟩ := presented_of_ok outcome
      have isIssued : ∃ issue ∈ session.issued, issue.state = query.state := by
        rcases kept.latest with empty | ⟨issue, earlier, isLatest, isState, _⟩
        · exact absurd empty set
        · exact ⟨issue, by rw [isLatest]; exact List.mem_cons_self, isState.trans presented.symm⟩
      refine @Kept.called _ kept slots [⟨info, query.state, exchange⟩] ?_ verifier ?_
      · rcases popped with empty | ⟨_, saml⟩
        · exact Or.inl empty
        · rw [loginCallback, saml] at outcome
          simp at outcome
      · simpa using isIssued

theorem Kept.step {event : LoginEvent} {next : LoginSession} (kept : Kept session) (fresh : Fresh session event)
    (step : session.Step event next) : Kept next := by
  cases step
  cases event with
  | start info discovered state verifier => exact kept.start fresh
  | callback info discovered query => exact kept.callback info discovered query

theorem kept_of_run {events : List LoginEvent} (run : Run (Restricted Fresh LoginSession.Step) {} events session) :
    Kept session := by
  have empty : Kept {} := ⟨Or.inl rfl, Or.inl rfl, fun _ none => nomatch none⟩
  exact @Run.invariant _ _ _ Kept (fun _ _ _ step kept => kept.step step.1 step.2) _ _ _ run empty

/-- A callback is accepted with the state of the latest start of the session, of
    whichever provider, and only if that state was not accepted before.  The verifier
    of an exchange is the one of that start if it has made one, and otherwise one left by
    an earlier start, or none. -/
theorem accepted_state_latest {events : List LoginEvent}
    (run : Run (Restricted Fresh LoginSession.Step) {} events session) {info : ProviderInfo} {discovered : Bool}
    {query : CallbackQuery} {slots : LoginSlots} {exchange : CodeExchange}
    (accepted : loginCallback info discovered query session.slots = (slots, .ok exchange)) :
    ∃ issue earlier, session.issued = issue :: earlier ∧ query.state = issue.state ∧
      (∀ before ∈ session.accepted, before.state ≠ query.state) ∧
      ∀ verifier, exchange.verifier = some verifier →
        (∀ made, issue.verifier = some made → verifier = made) ∧
        (issue.verifier = none → verifier = "" ∨ ∃ older ∈ earlier, older.verifier = some verifier) := by
  have kept := kept_of_run run
  obtain ⟨set, presented, uses⟩ := presented_of_ok accepted
  rcases kept.latest with empty | ⟨issue, earlier, isLatest, isState, unused, own⟩
  · exact absurd empty set
  refine ⟨issue, earlier, isLatest, presented.trans isState.symm, fun before mem => ?_, fun verifier isVerifier => ?_⟩
  · rw [presented]
    exact unused before mem
  · obtain rfl := uses verifier isVerifier
    refine ⟨fun made isMade => own made isMade, fun noVerifier => ?_⟩
    rcases kept.made with empty | ⟨older, isIssued, isOlder⟩
    · exact Or.inl empty
    · rw [isLatest, List.mem_cons] at isIssued
      rcases isIssued with rfl | isEarlier
      · rw [noVerifier] at isOlder
        cases isOlder
      · exact Or.inr ⟨older, isEarlier, isOlder⟩

/-! ## Two providers -/

def corp : ProviderInfo := ⟨.oidc, "corp"⟩

def github : ProviderInfo := ⟨.github, "github"⟩

def startedAt (info : ProviderInfo) : LoginSession := LoginSession.perform {} (.start info true "s1" "v1")

theorem fresh_first : Fresh {} (.start info true "s1" "v1") := by simp [Fresh]

theorem accepted_state_latest_corp :
    ∃ issue earlier, (startedAt corp).issued = issue :: earlier ∧ "s1" = issue.state ∧
      (∀ before ∈ (startedAt corp).accepted, before.state ≠ "s1") ∧
      ∀ verifier, some "v1" = some verifier → (∀ made, issue.verifier = some made → verifier = made) ∧
        (issue.verifier = none → verifier = "" ∨ ∃ older ∈ earlier, older.verifier = some verifier) :=
  @accepted_state_latest _ _ (.step ⟨fresh_first corp, rfl⟩ (.refl _)) corp true ⟨"s1", "", "code"⟩ {} ⟨"code", some "v1"⟩ (by decide +kernel)

/-- The state of a login started at GitHub is accepted by another provider, which was
    never started. -/
theorem github_state_accepted_by_corp :
    ∃ session, Run (Restricted Fresh LoginSession.Step) {}
        [.start github true "s1" "v1", .callback corp true ⟨"s1", "", "code"⟩] session ∧
      ∃ accepted ∈ session.accepted, accepted.provider.name = "corp" ∧
        ∀ issue ∈ session.issued, issue.provider.name ≠ "corp" := by
  refine ⟨_, .step ⟨fresh_first github, rfl⟩ (.step ⟨trivial, rfl⟩ (.refl _)), ?_⟩
  exact ⟨⟨corp, "s1", ⟨"code", some ""⟩⟩, List.mem_singleton_self _, rfl, by decide +kernel⟩

end OtelFleet.Verified.LoginStates
