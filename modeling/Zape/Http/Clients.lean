import Zape.Http.Handlers
import Zape.Machine.Tenants

/-! All the clients of one `HttpServer`, whose contexts come from one pool. -/
namespace ZapeModel

open Machine Zig HttpServer

/-- What `libapenetwork` calls the server for. A new client brings the allocator of its context; `granted` says whether the
    pool gets memory when it has no free slot. -/
inductive ServerInput (C : Type)
  | connect (client : C) (granted : Bool) (allocator : Allocator)
  | activity (client : C) (act : HttpActivity)
  | disconnect (client : C)

/-- `HttpServer(T)` with its clients: those that are connected have a `ctx`, which is `NULL` if the pool refused one. -/
structure HttpService (C T : Type) [Llhttp] where
  requestsPool : SlotPool (HttpConnection T)
  ctx : C → Option (Option Nat) := fun _ => none

inductive ServiceFault
  | panic (panic : Panic)
  | freedContext

section Service

variable {C T : Type} [DecidableEq C] [Llhttp]

def HttpService.init (preAllocatedRequest : Nat := 64) : HttpService C T :=
  { requestsPool := SlotPool.prepared preAllocatedRequest }

def HttpService.setCtx (service : HttpService C T) (client : C) (ctx : Option (Option Nat)) : HttpService C T :=
  { service with ctx := Function.update service.ctx client ctx }

def serviceConnect (service : HttpService C T) (client : C) (granted : Bool) (allocator : Allocator) : HttpService C T :=
  match service.requestsPool.create granted { request := { allocator } } with
  | none => service.setCtx client (some none)
  | some (address, requestsPool) => { service with requestsPool }.setCtx client (some (some address))

/-- `disconnect`: the context is given back to the pool. -/
def serviceDisconnect (onDisconnect : Bool) (service : HttpService C T) (client : C) (address : Nat) :
    Outcome ServiceFault (HttpService C T) (C × HandlerEvent) :=
  match service.requestsPool.item address with
  | none => .error .freedContext
  | some connection =>
    .ok ({ service with requestsPool := service.requestsPool.destroy address }.setCtx client none,
      (disconnect onDisconnect connection).map (client, ·))

variable [GrowthPolicy] (handler : Handler T)

def serviceActivity (service : HttpService C T) (client : C) (address : Nat) (act : HttpActivity) :
    Outcome ServiceFault (HttpService C T) (C × HandlerEvent) :=
  match service.requestsPool.item address with
  | none => .error .freedContext
  | some connection =>
    match connectionActivity handler connection act with
    | .error panic => .error (.panic panic)
    | .ok (connection, events) =>
      .ok ({ service with requestsPool := service.requestsPool.store address connection }, events.map (client, ·))

/-- Without a context, a read closes the client; there is nothing else that could be called. -/
def refused : HttpActivity → List HandlerEvent
  | .read _ => [.http (.transport (.close .now))]
  | .call _ | .webSocket _ => []

/-- Only clients that are not connected are connected, and only others are read or disconnected. -/
def serviceStep (onDisconnect : Bool) : Transition ServiceFault (HttpService C T) (ServerInput C) (C × HandlerEvent)
  | service, .connect client granted allocator =>
    match service.ctx client with
    | some _ => .ok (service, [])
    | none => .ok (serviceConnect service client granted allocator, [])
  | service, .activity client act =>
    match service.ctx client with
    | none => .ok (service, [])
    | some none => .ok (service, (refused act).map (client, ·))
    | some (some address) => serviceActivity handler service client address act
  | service, .disconnect client =>
    match service.ctx client with
    | none => .ok (service, [])
    | some none => .ok (service.setCtx client none, [])
    | some (some address) => serviceDisconnect onDisconnect service client address

end Service

end ZapeModel

namespace ZapeProof

open Machine Zig ZapeModel ZapeModel.HttpServer

/-- What happens to one client. -/
inductive OwnInput
  | connect (created : Bool) (allocator : Allocator)
  | activity (act : HttpActivity)
  | disconnect

section Alone

variable {T : Type} [Llhttp] [GrowthPolicy] (handler : Handler T)

/-- A client that is the only one: it is connected or not, and has a context of its own or none. -/
def aloneStep (onDisconnect : Bool) : Transition Panic (Option (Option (HttpConnection T))) OwnInput HandlerEvent
  | some state, .connect _ _ => .ok (some state, [])
  | none, .connect created allocator => .ok (some (if created then some { request := { allocator } } else none), [])
  | none, .activity _ => .ok (none, [])
  | some none, .activity act => .ok (some none, refused act)
  | some (some connection), .activity act =>
    match connectionActivity handler connection act with
    | .error panic => .error panic
    | .ok (connection, events) => .ok (some (some connection), events)
  | none, .disconnect | some none, .disconnect => .ok (none, [])
  | some (some connection), .disconnect => .ok (none, disconnect onDisconnect connection)

end Alone

section Apart

variable {C T : Type} [DecidableEq C] [Llhttp] {service : HttpService C T} {client other : C}

def holder (service : HttpService C T) (client : C) : Option Nat := (service.ctx client).join

/-- A client as it would be alone. -/
def aloneView (service : HttpService C T) (client : C) : Option (Option (HttpConnection T)) :=
  (service.ctx client).map fun ctx => ctx.bind service.requestsPool.item

def ownInput (client : C) (service : HttpService C T) : ServerInput C → List OwnInput
  | .connect other granted allocator =>
    if other = client then [.connect (!service.requestsPool.free.isEmpty || granted) allocator] else []
  | .activity other act => if other = client then [.activity act] else []
  | .disconnect other => if other = client then [.disconnect] else []

def ownEvents (client : C) (events : List (C × HandlerEvent)) : List HandlerEvent :=
  events.filterMap fun event => if event.1 = client then some event.2 else none

def inputClient : ServerInput C → C
  | .connect client _ _ | .activity client _ | .disconnect client => client

/-- Every context that was handed out belongs to one client that is connected. -/
def Separate (service : HttpService C T) : Prop := Tenancy service.requestsPool (holder service)

theorem holder_setCtx (service : HttpService C T) (client : C) (ctx : Option (Option Nat)) :
    holder (service.setCtx client ctx) = Function.update (holder service) client ctx.join := by
  funext other
  by_cases same : other = client
  · subst same
    simp [holder, HttpService.setCtx]
  · simp [holder, HttpService.setCtx, same]

omit [DecidableEq C] in
theorem aloneView_eq (service : HttpService C T) (client : C) :
    aloneView service client = (service.ctx client).map fun _ => tenant service.requestsPool (holder service) client := by
  rw [aloneView, tenant, holder]
  cases service.ctx client with
  | none => rfl
  | some ctx => rfl

@[simp] theorem ownInput_activity (act : HttpActivity) :
    ownInput client service (.activity client act) = [.activity act] := if_pos rfl

@[simp] theorem ownInput_disconnect : ownInput client service (.disconnect client) = [.disconnect] := if_pos rfl

@[simp] theorem ownInput_connect (granted : Bool) (allocator : Allocator) :
    ownInput client service (.connect client granted allocator) =
      [.connect (!service.requestsPool.free.isEmpty || granted) allocator] := if_pos rfl

theorem ownInput_other {input : ServerInput C} (differ : inputClient input ≠ other) : ownInput other service input = [] := by
  cases input <;> exact if_neg differ

omit [Llhttp] in
theorem ownEvents_self (client : C) (events : List HandlerEvent) : ownEvents client (events.map (client, ·)) = events := by
  rw [ownEvents, List.filterMap_map]
  simp

omit [Llhttp] in
theorem ownEvents_other (differ : client ≠ other) (events : List HandlerEvent) :
    ownEvents other (events.map (client, ·)) = [] := by
  rw [ownEvents, List.filterMap_map]
  simp [differ]

omit [Llhttp] in
theorem ownEvents_append (client : C) (early late : List (C × HandlerEvent)) :
    ownEvents client (early ++ late) = ownEvents client early ++ ownEvents client late := List.filterMap_append

/-- A change of the pool and of one client, as everyone sees it. -/
theorem aloneView_setCtx {pool : SlotPool (HttpConnection T)} {ctx : Option (Option Nat)} {value : Option (HttpConnection T)}
    (views : tenant pool (Function.update (holder service) client ctx.join) =
      Function.update (tenant service.requestsPool (holder service)) client value) :
    aloneView ({ service with requestsPool := pool }.setCtx client ctx) client = ctx.map (fun _ => value) ∧
      ∀ other, client ≠ other →
        aloneView ({ service with requestsPool := pool }.setCtx client ctx) other = aloneView service other := by
  have holders : holder ({ service with requestsPool := pool }.setCtx client ctx) =
      Function.update (holder service) client ctx.join := holder_setCtx { service with requestsPool := pool } client ctx
  constructor
  · rw [aloneView_eq, holders]
    show (Function.update service.ctx client ctx client).map (fun _ => tenant pool _ client) = _
    rw [views, Function.update_self, Function.update_self]
  · intro other differ
    rw [aloneView_eq, aloneView_eq, holders]
    show (Function.update service.ctx client ctx other).map (fun _ => tenant pool _ other) = _
    rw [views, Function.update_of_ne differ.symm, Function.update_of_ne differ.symm]

theorem separate_setCtx {pool : SlotPool (HttpConnection T)} {ctx : Option (Option Nat)}
    (tenancy : Tenancy pool (Function.update (holder service) client ctx.join)) :
    Separate ({ service with requestsPool := pool }.setCtx client ctx) := by
  rw [Separate, holder_setCtx]
  exact tenancy

/-- A client that holds nothing is connected without a context, or disconnected. -/
theorem setCtx_unheld (separate : Separate service) (free : holder service client = none) {ctx : Option (Option Nat)}
    (empty : ctx.join = none) :
    Separate (service.setCtx client ctx) ∧ aloneView (service.setCtx client ctx) client = ctx.map (fun _ => none) ∧
      ∀ other, client ≠ other → aloneView (service.setCtx client ctx) other = aloneView service other := by
  have same : Function.update (holder service) client ctx.join = holder service := by
    rw [empty]
    exact Function.update_eq_self_iff.mpr free.symm
  have nothing : tenant service.requestsPool (holder service) client = none := by
    rw [tenant, free]
    rfl
  have views : tenant service.requestsPool (Function.update (holder service) client ctx.join) =
      Function.update (tenant service.requestsPool (holder service)) client none := by
    rw [same]
    exact (Function.update_eq_self_iff.mpr nothing.symm).symm
  refine ⟨?_, aloneView_setCtx views⟩
  apply @separate_setCtx _ _ _ _ service client service.requestsPool
  rw [same]
  exact separate

/-- Of a step only the client that it is about sees anything, and that sees what it would see alone. -/
structure ApartStep [GrowthPolicy] (handler : Handler T) (onDisconnect : Bool) (service : HttpService C T)
    (input : ServerInput C) (next : HttpService C T) (events : List HandlerEvent) : Prop where
  separate : Separate next
  alone : run (aloneStep handler onDisconnect) (aloneView service (inputClient input))
    (ownInput (inputClient input) service input) = .ok (aloneView next (inputClient input), events)
  others : ∀ other, inputClient input ≠ other → aloneView next other = aloneView service other

section Steps

variable [GrowthPolicy] {handler : Handler T} {onDisconnect : Bool}

theorem apart_stay {input : ServerInput C} {events : List HandlerEvent} (separate : Separate service)
    (alone : run (aloneStep handler onDisconnect) (aloneView service (inputClient input))
      (ownInput (inputClient input) service input) = .ok (aloneView service (inputClient input), events)) :
    ApartStep handler onDisconnect service input service events where
  separate := separate
  alone := alone
  others _ _ := rfl

theorem connect_apart (separate : Separate service) (granted : Bool) (allocator : Allocator)
    (absent : service.ctx client = none) :
    ApartStep handler onDisconnect service (.connect client granted allocator)
      (serviceConnect service client granted allocator) [] := by
  have free : holder service client = none := by rw [holder, absent]; rfl
  have view : aloneView service client = none := by rw [aloneView, absent]; rfl
  cases created : service.requestsPool.create granted { request := { allocator } } with
  | none =>
    have result : serviceConnect service client granted allocator = service.setCtx client (some none) := by
      rw [serviceConnect, created]
    have refuses : (!service.requestsPool.free.isEmpty || granted) = false := by
      unfold SlotPool.create at created
      cases list : service.requestsPool.free with
      | nil =>
        rw [list] at created
        cases granted with
        | false => rfl
        | true => cases created
      | cons address rest =>
        rw [list] at created
        cases created
    obtain ⟨kept, seen, others⟩ := @setCtx_unheld _ _ _ _ _ _ separate free (some none) rfl
    rw [result]
    refine { separate := kept, alone := ?_, others }
    show run _ (aloneView service client) (ownInput client service _) = .ok (aloneView _ client, [])
    rw [ownInput_connect, run_singleton, view, refuses, seen]
    rfl
  | some made =>
    obtain ⟨address, pool⟩ := made
    have result : serviceConnect service client granted allocator =
        { service with requestsPool := pool }.setCtx client (some (some address)) := by
      rw [serviceConnect, created]
    have agrees : (!service.requestsPool.free.isEmpty || granted) = true := by
      unfold SlotPool.create at created
      cases list : service.requestsPool.free with
      | nil =>
        rw [list] at created
        cases granted with
        | false => cases created
        | true => rfl
      | cons address rest => rfl
    obtain ⟨tenancy, views⟩ := tenancy_create separate free created
    have seen := @aloneView_setCtx C T _ _ service client pool (some (some address)) _ views
    rw [result]
    refine { separate := separate_setCtx tenancy, alone := ?_, others := seen.2 }
    show run _ (aloneView service client) (ownInput client service _) = .ok (aloneView _ client, [])
    rw [ownInput_connect, run_singleton, view, agrees, seen.1]
    rfl

omit [DecidableEq C] [GrowthPolicy] in
/-- The context of a connected client is in the pool. -/
theorem separate_context (separate : Separate service) {address : Nat} (ctx : service.ctx client = some (some address)) :
    ∃ connection, service.requestsPool.item address = some connection ∧ holder service client = some address ∧
      aloneView service client = some (some connection) := by
  have holds : holder service client = some address := by rw [holder, ctx]; rfl
  obtain ⟨connection, found⟩ := separate.occupied client address holds
  refine ⟨connection, found, holds, ?_⟩
  rw [aloneView, ctx]
  show some (service.requestsPool.item address) = _
  rw [found]

theorem activity_apart (separate : Separate service) {address : Nat} (act : HttpActivity)
    (ctx : service.ctx client = some (some address)) :
    (∃ next events, serviceActivity handler service client address act = .ok (next, events.map (client, ·)) ∧
      ApartStep handler onDisconnect service (.activity client act) next events) ∨
    ∃ panic, serviceActivity handler service client address act = .error (.panic panic) ∧
      run (aloneStep handler onDisconnect) (aloneView service client) (ownInput client service (.activity client act)) =
        .error panic := by
  obtain ⟨connection, found, holds, view⟩ := separate_context separate ctx
  cases acted : connectionActivity handler connection act with
  | error panic =>
    right
    refine ⟨panic, by rw [serviceActivity, found]; simp only [acted], ?_⟩
    rw [ownInput_activity, run_singleton, view]
    simp only [aloneStep, acted]
  | ok result =>
    obtain ⟨after, events⟩ := result
    left
    obtain ⟨tenancy, views⟩ := tenancy_store separate holds after
    have same : Function.update (holder service) client (some address) = holder service :=
      Function.update_eq_self_iff.mpr holds.symm
    have kept : { service with requestsPool := service.requestsPool.store address after } =
        { service with requestsPool := service.requestsPool.store address after }.setCtx client (some (some address)) := by
      rw [HttpService.setCtx, ← ctx, Function.update_eq_self]
    have views' : tenant (service.requestsPool.store address after)
        (Function.update (holder service) client (some (some address) : Option _).join) =
        Function.update (tenant service.requestsPool (holder service)) client (some after) := by
      rw [show (some (some address) : Option (Option Nat)).join = some address from rfl, same]
      exact views
    have seen := aloneView_setCtx views'
    rw [← kept] at seen
    refine ⟨_, events, by rw [serviceActivity, found]; simp only [acted]; rfl, ?_⟩
    refine { separate := tenancy, alone := ?_, others := seen.2 }
    show run _ (aloneView service client) (ownInput client service _) = .ok (aloneView _ client, _)
    rw [ownInput_activity, run_singleton, view, seen.1]
    simp only [aloneStep, acted, Option.map_some]

theorem disconnect_apart (separate : Separate service) {address : Nat} (ctx : service.ctx client = some (some address)) :
    ∃ next events, serviceDisconnect onDisconnect service client address = .ok (next, events.map (client, ·)) ∧
      ApartStep handler onDisconnect service (.disconnect client) next events := by
  obtain ⟨connection, found, holds, view⟩ := separate_context separate ctx
  obtain ⟨tenancy, views⟩ := tenancy_destroy separate holds
  have seen := @aloneView_setCtx C T _ _ service client _ none none views
  refine ⟨_, disconnect onDisconnect connection, by rw [serviceDisconnect, found], ?_⟩
  refine { separate := separate_setCtx tenancy, alone := ?_, others := seen.2 }
  show run _ (aloneView service client) (ownInput client service _) = .ok (aloneView _ client, _)
  rw [ownInput_disconnect, run_singleton, view, seen.1]
  rfl

/-- A step fails only where its client alone would panic. -/
theorem service_apart (separate : Separate service) (input : ServerInput C) :
    (∃ next events, serviceStep handler onDisconnect service input = .ok (next, events.map (inputClient input, ·)) ∧
      ApartStep handler onDisconnect service input next events) ∨
    ∃ panic, serviceStep handler onDisconnect service input = .error (.panic panic) ∧
      run (aloneStep handler onDisconnect) (aloneView service (inputClient input))
        (ownInput (inputClient input) service input) = .error panic := by
  cases input with
  | connect client granted allocator =>
    left
    cases ctx : service.ctx client with
    | none =>
      exact ⟨_, [], by simp only [serviceStep, ctx]; rfl, connect_apart separate granted allocator ctx⟩
    | some state =>
      refine ⟨service, [], by simp only [serviceStep, ctx]; rfl, apart_stay separate ?_⟩
      show run _ (aloneView service client) (ownInput client service _) = .ok (aloneView service client, [])
      simp only [ownInput_connect, run_singleton, aloneView, ctx]
      rfl
  | activity client act =>
    cases ctx : service.ctx client with
    | none =>
      left
      refine ⟨service, [], by simp only [serviceStep, ctx]; rfl, apart_stay separate ?_⟩
      show run _ (aloneView service client) (ownInput client service _) = .ok (aloneView service client, [])
      simp only [ownInput_activity, run_singleton, aloneView, ctx]
      rfl
    | some state =>
      cases state with
      | none =>
        left
        refine ⟨service, refused act, by simp only [serviceStep, ctx]; rfl, apart_stay separate ?_⟩
        show run _ (aloneView service client) (ownInput client service _) = .ok (aloneView service client, _)
        simp only [ownInput_activity, run_singleton, aloneView, ctx]
        rfl
      | some address =>
        simp only [serviceStep, ctx]
        exact activity_apart separate act ctx
  | disconnect client =>
    left
    cases ctx : service.ctx client with
    | none =>
      refine ⟨service, [], by simp only [serviceStep, ctx]; rfl, apart_stay separate ?_⟩
      show run _ (aloneView service client) (ownInput client service _) = .ok (aloneView service client, [])
      simp only [ownInput_disconnect, run_singleton, aloneView, ctx]
      rfl
    | some state =>
      cases state with
      | none =>
        have free : holder service client = none := by rw [holder, ctx]; rfl
        obtain ⟨kept, seen, others⟩ := @setCtx_unheld _ _ _ _ _ _ separate free none rfl
        refine ⟨service.setCtx client none, [], by simp only [serviceStep, ctx]; rfl,
          { separate := kept, alone := ?_, others }⟩
        show run _ (aloneView service client) (ownInput client service _) = .ok (aloneView _ client, [])
        rw [seen]
        simp only [ownInput_disconnect, run_singleton, aloneView, ctx]
        rfl
      | some address =>
        simp only [serviceStep, ctx]
        exact disconnect_apart separate ctx

theorem ownEvents_step {input : ServerInput C} {next : HttpService C T} {events : List HandlerEvent}
    (apart : ApartStep handler onDisconnect service input next events) (client : C) :
    run (aloneStep handler onDisconnect) (aloneView service client) (ownInput client service input) =
      .ok (aloneView next client, ownEvents client (events.map (inputClient input, ·))) := by
  by_cases same : inputClient input = client
  · subst same
    rw [ownEvents_self]
    exact apart.alone
  · rw [ownInput_other same, ownEvents_other same, apart.others client same]
    rfl

theorem service_run (separate : Separate service) (inputs : List (ServerInput C)) :
    (∃ last events, run (serviceStep handler onDisconnect) service inputs = .ok (last, events) ∧ Separate last ∧
      ∀ client, run (aloneStep handler onDisconnect) (aloneView service client)
        (collect (serviceStep handler onDisconnect) (ownInput client) service inputs) =
          .ok (aloneView last client, ownEvents client events)) ∨
    ∃ panic client, run (serviceStep handler onDisconnect) service inputs = .error (.panic panic) ∧
      run (aloneStep handler onDisconnect) (aloneView service client)
        (collect (serviceStep handler onDisconnect) (ownInput client) service inputs) = .error panic := by
  induction inputs generalizing service with
  | nil => exact .inl ⟨service, [], rfl, separate, fun _ => rfl⟩
  | cons input inputs ih =>
    rcases @service_apart C T _ _ service _ handler onDisconnect separate input with
      ⟨next, events, stepped, apart⟩ | ⟨panic, failed, alone⟩
    · rcases ih apart.separate with ⟨last, later, ran, kept, each⟩ | ⟨panic, client, failed, alone⟩
      · left
        refine ⟨last, _, run_ok_cons stepped ran, kept, ?_⟩
        intro client
        rw [collect_cons_ok stepped, ownEvents_append]
        exact run_ok_append (ownEvents_step apart client) (each client)
      · right
        refine ⟨panic, client, ?_, ?_⟩
        · rw [run_cons, stepped]
          simp only [andThen, failed]
        · rw [collect_cons_ok stepped, run_append, ownEvents_step apart client]
          simp only [andThen, alone]
    · right
      refine ⟨panic, inputClient input, ?_, ?_⟩
      · rw [run_cons, failed, andThen_error]
      · rw [collect_cons_error failed]
        exact alone

/-- The inputs of a client where the pool always gets memory. -/
def ownGranted (client : C) : ServerInput C → List OwnInput
  | .connect other _ allocator => if other = client then [.connect true allocator] else []
  | .activity other act => if other = client then [.activity act] else []
  | .disconnect other => if other = client then [.disconnect] else []

def grants : ServerInput C → Bool
  | .connect _ granted _ => granted
  | .activity _ _ | .disconnect _ => true

theorem collect_granted {inputs : List (ServerInput C)} {last : HttpService C T} {events : List (C × HandlerEvent)}
    (ran : run (serviceStep handler onDisconnect) service inputs = .ok (last, events))
    (granted : ∀ input ∈ inputs, grants input = true) (client : C) :
    collect (serviceStep handler onDisconnect) (ownInput client) service inputs = inputs.flatMap (ownGranted client) := by
  induction inputs generalizing service events with
  | nil => rfl
  | cons input inputs ih =>
    obtain ⟨next, head, rest, stepped, later, -⟩ := andThen_cases ran
    rw [collect_cons_ok stepped, List.flatMap_cons, ih later fun other member => granted other (by simp [member])]
    congr 1
    have agrees := granted input (by simp)
    cases input with
    | connect other room allocator =>
      have given : room = true := agrees
      simp only [ownInput, ownGranted, given, Bool.or_true]
    | activity | disconnect => rfl

end Steps

end Apart

/-- The clients of a server do not interfere: whatever the order of their inputs, each gets what it would get alone, its
    context is no one else's, and the server panics only where one of them alone would. -/
theorem clients_apart {C T : Type} [DecidableEq C] [Llhttp] [GrowthPolicy] (handler : Handler T) (onDisconnect : Bool)
    (preAllocatedRequest : Nat) (inputs : List (ServerInput C)) :
    (∃ (last : HttpService C T) (events : List (C × HandlerEvent)),
      run (serviceStep handler onDisconnect) (HttpService.init preAllocatedRequest) inputs = .ok (last, events) ∧
      Tenancy last.requestsPool (holder last) ∧ ∀ client,
        run (aloneStep handler onDisconnect) none
          (collect (serviceStep handler onDisconnect) (ownInput client) (HttpService.init preAllocatedRequest) inputs) =
            .ok (aloneView last client, ownEvents client events) ∧
        ((∀ input ∈ inputs, grants input = true) →
          run (aloneStep handler onDisconnect) none (inputs.flatMap (ownGranted client)) =
            .ok (aloneView last client, ownEvents client events))) ∨
    ∃ (panic : Panic) (client : C),
      run (serviceStep handler onDisconnect) (HttpService.init preAllocatedRequest) inputs = .error (.panic panic) ∧
      run (aloneStep handler onDisconnect) none
        (collect (serviceStep handler onDisconnect) (ownInput client) (HttpService.init preAllocatedRequest) inputs) =
          .error panic := by
  have separate : Separate (HttpService.init preAllocatedRequest : HttpService C T) := tenancy_prepared preAllocatedRequest
  rcases @service_run C T _ _ _ _ handler onDisconnect separate inputs with ⟨last, events, ran, kept, each⟩ | failing
  · left
    refine ⟨last, events, ran, kept, fun client => ⟨each client, ?_⟩⟩
    intro granted
    rw [← collect_granted ran granted client]
    exact each client
  · exact .inr failing

end ZapeProof
