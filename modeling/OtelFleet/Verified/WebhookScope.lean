import OtelFleet.Data.Rows
import OtelFleet.Semantics.Run
import OtelFleet.Webhooks.System

/-! # Webhooks and tenant scope

The webhook routes are not among the admin-only paths, their handlers do not look
at the principal's scope and the dispatcher fans every event out to every channel.
So a scoped user is kept from other customers' events as far as the guard's other checks
keep the user from the routes and the channels of the user take no such events.
-/

namespace OtelFleet.Verified.WebhookScope

open Api Semantics Store Webhooks

/-! ## What a scoped user may see -/

/-- The channels that an answer tells something about. -/
def revealed (route : WebhookRoute) (answer : WebhookAnswer) : List Uuid :=
  match route, answer with
  | _, .answered (.ok (.webhooks hooks)) => hooks.map WebhookView.id
  | _, .answered (.ok (.created hook)) | _, .answered (.ok (.updated hook)) => [hook.id]
  | .test id, .answered (.ok (.tested _ _)) => [id]
  | _, _ => []

/-- The exchange tells the user of no channels but the user's own, and leaves all
    others as they are. -/
def Discreet (user : Uuid) (exchange : Exchange) : Prop :=
  (∀ id ∈ revealed exchange.request.route exchange.answer,
      ∃ hook ∈ exchange.after, hook.id = id ∧ hook.createdBy = some user) ∧
    ∀ hook ∈ exchange.before, hook.createdBy ≠ some user → hook ∈ exchange.after

/-- No event of a customer that the user is not granted went out to a channel in the
    user's control, and all requests of the user were discreet. -/
def Isolated (user : Uuid) (system : System) : Prop :=
  (∀ delivery ∈ system.deliveries, delivery.control.HeldBy user →
      delivery.event.customerID ∈ system.users.listUserCustomerIDs user) ∧
    ∀ exchange ∈ system.exchanges, exchange.request.sessionUser = some user → Discreet user exchange

/-! ## Requests that get nowhere -/

/-- Behind the guard, the request lists a channel, creates one or finds the one it
    names, and its body passes the checks. -/
def Reaches (tables : WebhookTables) (req : WebhookRequest) : Prop :=
  match req.route with
  | .list => tables.webhooks ≠ []
  | .create body => ∃ actor hook, newWebhook req.env actor body = .ok hook
  | .update id body => ∃ hook ∈ tables.webhooks, hook.id = id ∧ ∃ upd, webhookUpdate req.env hook body = .ok upd
  | .delete id | .test id => ∃ hook ∈ tables.webhooks, hook.id = id

def Refused (users : UserTables) (req : WebhookRequest) : Prop :=
  ∃ denial, Api.guard users req.guarded = .error denial

/-! Of a user who can sign in, the guard looks at the role and the CSRF token only. -/

variable (route : WebhookRoute)

theorem root_prefix_path : WebhookRoute.root.toList <+: route.path.toList := by
  cases route with
  | list | create _ => exact List.prefix_rfl
  | update id _ | delete id | test id =>
    simp only [WebhookRoute.path, String.toList_append]
    exact List.prefix_append ..

theorem path_ne {path : String} (apart : ¬ WebhookRoute.root.toList <+: path.toList) : route.path ≠ path :=
  fun same => apart (same ▸ root_prefix_path route)

theorem isAdminOnlyPath_webhooks : isAdminOnlyPath route.path = false := by
  refine List.any_eq_false.mpr fun area mem => ?_
  have apart : ∀ area ∈ adminPathPrefixes,
      ¬ WebhookRoute.root.toList <+: area.toList ∧ ¬ area.toList <+: WebhookRoute.root.toList := by decide
  obtain ⟨notBelow, notAbove⟩ := apart area mem
  simp only [Bool.or_eq_true, decide_eq_true_eq, List.isPrefixOf_iff_prefix, not_or]
  refine ⟨path_ne route notBelow, fun inside => ?_⟩
  rw [String.toList_append] at inside
  have begins := (List.prefix_append _ _).trans inside
  rcases List.prefix_or_prefix_of_prefix begins (root_prefix_path route) with above | below
  · exact notAbove above
  · exact notBelow below

theorem refused_iff {users : UserTables} {req : WebhookRequest} {user : User} {validCSRF : Bool}
    (session : req.credentials = .session (some user.id) validCSRF) (found : users.getUser user.id = .ok user)
    (enabled : user.disabledAt = none) (loaded : req.faults 0 = none ∧ req.faults 1 = none) :
    Refused users req ↔
      isMutating req.route.method ∧ (validCSRF = false ∨ canMutate user.role = false) := by
  have notPublic : req.route.path ∉ publicPaths := by
    intro isPublic
    have apart : ∀ path ∈ publicPaths, ¬ WebhookRoute.root.toList <+: path.toList := by decide
    exact path_ne req.route (apart _ isPublic) rfl
  have notLogout : req.route.path ≠ logoutPath := path_ne req.route (by decide)
  unfold Refused Api.guard WebhookRequest.guarded
  simp only [notPublic, session, guardSession, loaded.1, found, guardUser, enabled, isAdminOnlyPath_webhooks]
  cases isMutating req.route.method <;> cases validCSRF <;> cases canMutate user.role <;>
    cases atLeast user.role roleAdmin <;> simp [notLogout, loaded.2, Except.map]

/-- The user's own requests are refused or reach no channel, and the vetted channels
    take events of granted customers only. -/
def Allowed (user : Uuid) (vetted : Set Uuid) (system : System) : Action → Prop
  | .request req => req.sessionUser = some user →
      Refused system.users req ∨ ¬ Reaches system.tables req
  | .publish _ => True
  | .dispatch _ => ∀ event ∈ system.queue.head?, ∀ hook ∈ matchedWebhooks event system.tables.webhooks,
      hook.id ∈ vetted → event.customerID ∈ system.users.listUserCustomerIDs user

def Empty (response : Except ApiError WebhookResponse) : Prop :=
  (∃ err, response = .error err) ∨ response = .ok (.webhooks [])

section

variable {env : WebhookEnv} {principal : Option Principal} {faults : Faults StoreError} {db : WebhookTables}

theorem loadWebhook_ok {id : Uuid} {hook : Webhook} (loaded : loadWebhook faults id db = .ok hook) :
    hook ∈ db.webhooks ∧ hook.id = id := by
  unfold loadWebhook WebhookTables.getWebhook at loaded
  split at loaded
  · cases loaded
  · cases found : db.webhooks.find? fun hook => hook.id = id with
    | none =>
      rw [found] at loaded
      cases loaded
    | some other =>
      rw [found] at loaded
      cases loaded
      exact ⟨List.mem_of_find?_eq_some found, by simpa using List.find?_some found⟩

theorem deleteWebhook_missing {id : Uuid} {entry : AuditEntry} (missing : ¬ ∃ hook ∈ db.webhooks, hook.id = id) :
    ∃ err, deleteWebhook faults id entry db = (.error err, db) := by
  have refused : db.removeWebhook id = .error .notFound := if_neg missing
  apply inTx_error
  rintro ⟨_, committed, ran⟩
  simp only [runAll, List.foldlM_cons, refused] at ran
  cases ran

theorem handleWebhooks_unreached {req : WebhookRequest} (unreached : ¬ Reaches db req) :
    ∃ response, Empty response ∧
      handleWebhooks req.env principal faults req.route db = (response, db) := by
  unfold Reaches at unreached
  generalize req.route = route at unreached ⊢
  cases route with
  | list =>
    refine ⟨_, ?_, rfl⟩
    unfold handleListWebhooks
    split
    · exact Or.inl ⟨_, rfl⟩
    · rw [WebhookTables.listWebhooks, not_not.mp unreached]
      exact Or.inr rfl
  | create body =>
    rw [handleWebhooks, handleCreateWebhook]
    cases checked : newWebhook req.env (actorID principal) body with
    | error err => exact ⟨_, Or.inl ⟨err, rfl⟩, rfl⟩
    | ok hook => exact absurd ⟨_, hook, checked⟩ unreached
  | update id body =>
    rw [handleWebhooks, handleUpdateWebhook]
    cases loaded : loadWebhook faults id db with
    | error err => exact ⟨_, Or.inl ⟨err, rfl⟩, rfl⟩
    | ok hook =>
      cases checked : webhookUpdate req.env hook body with
      | error err => exact ⟨_, Or.inl ⟨err, rfl⟩, by simp only [checked]⟩
      | ok upd => exact absurd ⟨hook, (loadWebhook_ok loaded).1, (loadWebhook_ok loaded).2, upd, checked⟩ unreached
  | delete id =>
    obtain ⟨err, failed⟩ := @deleteWebhook_missing faults db id
      (webhookEntry principal "webhook.delete" id .null) unreached
    rw [handleWebhooks, handleDeleteWebhook, failed]
    exact ⟨_, Or.inl ⟨_, rfl⟩, rfl⟩
  | test id =>
    refine ⟨_, ?_, rfl⟩
    rw [handleTestWebhook]
    cases loaded : loadWebhook faults id db with
    | error err => exact Or.inl ⟨err, rfl⟩
    | ok hook => exact absurd ⟨hook, loadWebhook_ok loaded⟩ unreached

end

/-- An answer that shows no channel: a refusal of the guard or an empty response. -/
def Silent : WebhookAnswer → Prop
  | .denied _ => True
  | .answered response => Empty response

theorem serveWebhooks_silent {users : UserTables} {req : WebhookRequest} {db : WebhookTables}
    (nowhere : Refused users req ∨ ¬ Reaches db req) :
    ∃ answer, Silent answer ∧ serveWebhooks users req db = (answer, db) := by
  unfold serveWebhooks
  rcases nowhere with ⟨denial, refused⟩ | unreached
  · rw [refused]
    exact ⟨.denied denial, trivial, rfl⟩
  · cases Api.guard users req.guarded with
    | error denial => exact ⟨.denied denial, trivial, rfl⟩
    | ok principal =>
      obtain ⟨response, empty, handled⟩ := @handleWebhooks_unreached principal (fun n => req.faults (n + 2)) db
        req unreached
      dsimp only
      rw [handled]
      exact ⟨.answered response, empty, rfl⟩

variable {answer : WebhookAnswer}

theorem revealed_silent (silent : Silent answer) : revealed route answer = [] := by
  cases answer with
  | denied denial => cases route <;> rfl
  | answered response =>
    rcases silent with ⟨err, rfl⟩ | rfl <;> rfl

theorem controlAfter_silent (user : Option Uuid) (route : WebhookRoute) (silent : Silent answer)
    (control : Uuid → Control) : controlAfter user route answer control = control := by
  cases answer with
  | denied denial => cases route <;> rfl
  | answered response =>
    rcases silent with ⟨err, rfl⟩ | rfl <;> cases route <;> rfl

/-! ## Runs -/

section

variable {user : Uuid} {vetted : Set Uuid}

theorem not_heldBy_controlAfter {requester : Option Uuid} (other : requester ≠ some user) (route : WebhookRoute)
    (answer : WebhookAnswer) {control : Uuid → Control} {id : Uuid} (free : ¬ (control id).HeldBy user) :
    ¬ (controlAfter requester route answer control id).HeldBy user := by
  unfold controlAfter
  split
  · rw [Function.update_apply]
    split
    · simp [Control.HeldBy, other]
    · exact free
  · next updatedID body hook =>
    rw [Function.update_apply]
    split
    · next same =>
      rw [same] at free
      simp only [Control.HeldBy, not_or] at free ⊢
      refine ⟨free.1, ?_, ?_, ?_⟩
      · split
        · exact other
        · exact free.2.1
      · split
        · exact other
        · exact free.2.2.1
      · split
        · exact other
        · exact free.2.2.2
    · exact free
  · exact free

/-- The user is isolated and has no channels in control but vetted ones. -/
structure Contained (user : Uuid) (vetted : Set Uuid) (system : System) : Prop where
  free : ∀ id ∉ vetted, ¬ (system.control id).HeldBy user
  isolated : Isolated user system

theorem contained_serve {system : System} (contained : Contained user vetted system) {req : WebhookRequest}
    (allowed : Allowed user vetted system (.request req)) : Contained user vetted (serve system req) := by
  by_cases own : req.sessionUser = some user
  · obtain ⟨answer, silent, served⟩ := serveWebhooks_silent (allowed own)
    unfold serve
    rw [served]
    refine ⟨?_, contained.isolated.1, ?_⟩
    · dsimp only
      rw [controlAfter_silent _ _ silent]
      exact contained.free
    · refine Data.forall_mem_append_row contained.isolated.2 fun _ => ⟨?_, fun hook present _ => present⟩
      simp [revealed_silent req.route silent]
  · exact ⟨fun id outside => not_heldBy_controlAfter own _ _ (contained.free id outside), contained.isolated.1,
      Data.forall_mem_append_row contained.isolated.2 fun isOwn => absurd isOwn own⟩

variable (getAgent : Uuid → Except StoreError Webhooks.Agent)

theorem contained_work {system : System} (contained : Contained user vetted system) {fault : Option StoreError}
    (allowed : Allowed user vetted system (.dispatch fault)) : Contained user vetted (work getAgent system fault) := by
  unfold work
  split
  · exact contained
  · next event queue queued =>
    refine ⟨contained.free, List.forall_mem_append.mpr ⟨contained.isolated.1, List.forall_mem_map.mpr ?_⟩,
      contained.isolated.2⟩
    rintro ⟨hook, payload⟩ sent held
    have isVetted : hook.id ∈ vetted := by_contra fun outside => contained.free hook.id outside held
    cases fault with
    | some err => cases sent
    | none =>
      obtain ⟨_, isMatched, same⟩ := List.mem_map.mp sent
      cases same
      obtain ⟨isHook, takes⟩ := List.mem_filter.mp isMatched
      have isStored := (List.perm_insertionSort _ _).mem_iff.mp isHook
      exact allowed event (by simp [queued]) hook (List.mem_filter.mpr ⟨isStored, takes⟩) isVetted

theorem contained_step {system next : System} {action : Action}
    (step : Restricted (Allowed user vetted) (Step getAgent) system action next) (contained : Contained user vetted system) :
    Contained user vetted next := by
  obtain ⟨allowed, rfl⟩ := step
  cases action with
  | request req => exact contained_serve contained allowed
  | publish event => exact ⟨contained.free, contained.isolated⟩
  | dispatch fault => exact contained_work getAgent contained allowed

variable {getAgent}

/-- A user who starts with vetted channels at most, which take events of granted
    customers only, and whose requests to the webhook routes are all refused or reach
    no channel is isolated in every state reached. -/
theorem scoped_user_isolated {start last : System} {actions : List Action} (contained : Contained user vetted start)
    (run : Run (Restricted (Allowed user vetted) (Step getAgent)) start actions last) : Isolated user last :=
  (run.invariant (fun _ _ _ step => contained_step getAgent step) contained).isolated

end

/-! ## A portal user -/

def portalUser (role : String) : User := { id := ⟨5⟩, email := "eve@acme.example", role := role, createdAt := 0 }

def portalSystem (role : String) : System where
  users :=
    { users := [portalUser role], customers := [⟨1⟩, ⟨2⟩], grants := [⟨⟨5⟩, ⟨1⟩⟩], auditLog := []
      grants_user := by simp [portalUser]
      grants_customer := by decide }
  tables := { webhooks := [], auditLog := [] }

def portalEnv : WebhookEnv where
  parseURL _ := .ok ⟨"https", "eve.example", none⟩
  cipher := none
  entropy := .ok 0
  hintKey := ""
  newID := ⟨100⟩
  now := 1
  sendTest := none

def createOwnHook : WebhookRequest where
  route := .create { name := "mine", url := some "https://eve.example", events := [webhookEventAgentOffline] }
  credentials := .session (some ⟨5⟩) true
  faults _ := none
  env := portalEnv

def foreignOffline : Event := { type := webhookEventAgentOffline, occurredAt := 2, agentID := ⟨9⟩, customerID := ⟨2⟩ }

def portalRun : List Action := [.request createOwnHook, .publish foreignOffline, .dispatch none]

def noAgents (_ : Uuid) : Except StoreError Webhooks.Agent := .error .notFound

theorem portalSystem_contained (role : String) : Contained ⟨5⟩ ∅ (portalSystem role) := by
  constructor <;> simp [portalSystem, Control.HeldBy, Isolated]

/-- A viewer's request is refused for the role. -/
theorem portalViewer_isolated : ∃ last,
    Run (Restricted (Allowed ⟨5⟩ ∅) (Step noAgents)) (portalSystem roleViewer) portalRun last ∧ Isolated ⟨5⟩ last := by
  have refused : Refused (portalSystem roleViewer).users createOwnHook :=
    (@refused_iff _ createOwnHook (portalUser roleViewer) true rfl rfl rfl ⟨rfl, rfl⟩).mpr ⟨rfl, Or.inr (by decide)⟩
  have run : Run (Restricted (Allowed ⟨5⟩ ∅) (Step noAgents)) (portalSystem roleViewer) portalRun _ :=
    .step ⟨fun _ => Or.inl refused, rfl⟩ (.step ⟨trivial, rfl⟩ (.step ⟨by simp [Allowed], rfl⟩ (.refl _)))
  exact ⟨_, run, scoped_user_isolated (portalSystem_contained roleViewer) run⟩

/-- An operator's request goes through, and the other customer's event goes out to
    the new channel. -/
theorem portalOperator_notified :
    (sessionPrincipal (portalUser roleOperator) ((portalSystem roleOperator).users.listUserCustomerIDs ⟨5⟩)).allCustomers =
      false ∧
    Contained ⟨5⟩ ∅ (portalSystem roleOperator) ∧
    ∃ last, Run (Step noAgents) (portalSystem roleOperator) portalRun last ∧ ¬ Isolated ⟨5⟩ last := by
  refine ⟨by decide, portalSystem_contained roleOperator, _,
    .step rfl (.step rfl (.step rfl (.refl _))), fun isolated => ?_⟩
  have delivered := isolated.1 _ (List.mem_cons_self ..) (by decide)
  exact absurd delivered (by decide)

end OtelFleet.Verified.WebhookScope
