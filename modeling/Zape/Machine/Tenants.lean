import Mathlib.Data.List.Range
import Mathlib.Logic.Function.Basic

/-! Pools whose slots are handed out and taken back, and who holds them. -/
namespace Machine

variable {α κ : Type*}

/-- So many slots were made. Those that were taken back are handed out again before a new one is made. -/
structure SlotPool (α : Type*) where
  item : Nat → Option α := fun _ => none
  free : List Nat := []
  count : Nat := 0

namespace SlotPool

def prepared (count : Nat) : SlotPool α := { free := List.range count, count }

/-- `granted` says whether there is memory for a new slot. -/
def create (pool : SlotPool α) (granted : Bool) (value : α) : Option (Nat × SlotPool α) :=
  match pool.free with
  | address :: free => some (address, { pool with item := Function.update pool.item address (some value), free })
  | [] =>
    if granted then
      some (pool.count, { pool with item := Function.update pool.item pool.count (some value), count := pool.count + 1 })
    else none

def store (pool : SlotPool α) (address : Nat) (value : α) : SlotPool α :=
  { pool with item := Function.update pool.item address (some value) }

def destroy (pool : SlotPool α) (address : Nat) : SlotPool α :=
  { pool with item := Function.update pool.item address none, free := address :: pool.free }

end SlotPool

/-- Each slot is free, or one and only one holds it. -/
structure Tenancy (pool : SlotPool α) (holds : κ → Option Nat) : Prop where
  occupied : ∀ key address, holds key = some address → ∃ value, pool.item address = some value
  single : ∀ key other address, holds key = some address → holds other = some address → key = other
  held : ∀ address value, pool.item address = some value → ∃ key, holds key = some address
  vacant : ∀ address, address ∈ pool.free ↔ address < pool.count ∧ pool.item address = none
  nodup : pool.free.Nodup
  below : ∀ address value, pool.item address = some value → address < pool.count

/-- What everyone has in the slots, without the slots. -/
def tenant (pool : SlotPool α) (holds : κ → Option Nat) : κ → Option α := fun key => (holds key).bind pool.item

section Operations

variable {pool new : SlotPool α} {holds : κ → Option Nat} {key : κ} {address : Nat} {value : α}

theorem tenancy_prepared (count : Nat) : Tenancy (SlotPool.prepared count : SlotPool α) fun _ : κ => none where
  occupied := by nofun
  single := by nofun
  held := by nofun
  vacant address := by simp [SlotPool.prepared]
  nodup := List.nodup_range
  below := by nofun

variable [DecidableEq κ]

/-- A slot that no one holds is written for a new holder. -/
theorem tenant_occupy (tenancy : Tenancy pool holds) (empty : pool.item address = none)
    (item : new.item = Function.update pool.item address (some value)) :
    tenant new (Function.update holds key (some address)) = Function.update (tenant pool holds) key (some value) := by
  funext other
  by_cases same : other = key
  · subst same
    simp [tenant, item]
  · rw [Function.update_of_ne same]
    show (Function.update holds key (some address) other).bind new.item = (holds other).bind pool.item
    rw [Function.update_of_ne same, item]
    cases holder : holds other with
    | none => rfl
    | some own =>
      obtain ⟨value', found⟩ := tenancy.occupied other own holder
      have apart : own ≠ address := by
        rintro rfl
        rw [empty] at found
        cases found
      exact Function.update_of_ne apart _ _

theorem tenancy_occupy (tenancy : Tenancy pool holds) (absent : holds key = none) (empty : pool.item address = none)
    (item : new.item = Function.update pool.item address (some value)) (count : pool.count ≤ new.count)
    (room : address < new.count) (nodup : new.free.Nodup)
    (vacant : ∀ other, other ∈ new.free ↔ other < new.count ∧ other ≠ address ∧ pool.item other = none) :
    Tenancy new (Function.update holds key (some address)) where
  occupied other own holder := by
    rw [item]
    by_cases here : own = address
    · subst here
      exact ⟨value, Function.update_self _ _ _⟩
    · rw [Function.update_of_ne here]
      by_cases same : other = key
      · subst same
        rw [Function.update_self] at holder
        exact absurd (Option.some.inj holder).symm here
      · rw [Function.update_of_ne same] at holder
        exact tenancy.occupied other own holder
  single := by
    have alone : ∀ other, other ≠ key → Function.update holds key (some address) other ≠ some address := by
      intro other differ holder
      rw [Function.update_of_ne differ] at holder
      obtain ⟨value', found⟩ := tenancy.occupied other address holder
      rw [empty] at found
      cases found
    intro first second own holder holder'
    by_cases same : first = key
    · by_cases same' : second = key
      · exact same.trans same'.symm
      · subst same
        rw [Function.update_self] at holder
        cases holder
        exact absurd holder' (alone second same')
    · by_cases same' : second = key
      · subst same'
        rw [Function.update_self] at holder'
        cases holder'
        exact absurd holder (alone first same)
      · rw [Function.update_of_ne same] at holder
        rw [Function.update_of_ne same'] at holder'
        exact tenancy.single first second own holder holder'
  held own value' found := by
    by_cases here : own = address
    · subst here
      exact ⟨key, Function.update_self _ _ _⟩
    · rw [item, Function.update_of_ne here] at found
      obtain ⟨other, holder⟩ := tenancy.held own value' found
      have differ : other ≠ key := by
        rintro rfl
        rw [absent] at holder
        cases holder
      exact ⟨other, (Function.update_of_ne differ _ _).trans holder⟩
  vacant other := by
    rw [vacant, item, Function.update_apply]
    by_cases here : other = address <;> simp [here]
  nodup := nodup
  below own value' found := by
    by_cases here : own = address
    · exact here ▸ room
    · rw [item, Function.update_of_ne here] at found
      exact (tenancy.below own value' found).trans_le count

/-- One more holder gets a slot that no one else holds. -/
theorem tenancy_create (tenancy : Tenancy pool holds) (absent : holds key = none) {granted : Bool}
    (created : pool.create granted value = some (address, new)) :
    Tenancy new (Function.update holds key (some address)) ∧
      tenant new (Function.update holds key (some address)) = Function.update (tenant pool holds) key (some value) := by
  unfold SlotPool.create at created
  split at created
  · rename_i own free list
    cases created
    have member := (tenancy.vacant address).mp (by rw [list]; simp)
    have apart := List.nodup_cons.mp (list ▸ tenancy.nodup)
    refine ⟨tenancy_occupy tenancy absent member.2 rfl le_rfl member.1 apart.2 ?_, tenant_occupy tenancy member.2 rfl⟩
    intro other
    have whole := tenancy.vacant other
    rw [list, List.mem_cons] at whole
    constructor
    · intro inside
      have both := whole.mp (.inr inside)
      refine ⟨both.1, ?_, both.2⟩
      rintro rfl
      exact apart.1 inside
    · rintro ⟨bounded, differ, empty⟩
      exact (whole.mpr ⟨bounded, empty⟩).resolve_left differ
  · rename_i list
    split at created
    · cases created
      have empty : pool.item pool.count = none := by
        cases found : pool.item pool.count with
        | none => rfl
        | some value' => exact absurd (tenancy.below _ _ found) (Nat.lt_irrefl _)
      refine ⟨tenancy_occupy tenancy absent empty rfl (Nat.le_succ _) (Nat.lt_succ_self _) tenancy.nodup ?_,
        tenant_occupy tenancy empty rfl⟩
      intro other
      have whole := tenancy.vacant other
      show other ∈ pool.free ↔ other < pool.count + 1 ∧ _
      rw [whole]
      constructor
      · rintro ⟨bounded, empty⟩
        exact ⟨by omega, by omega, empty⟩
      · rintro ⟨bounded, differ, empty⟩
        exact ⟨by omega, empty⟩
    · cases created

theorem tenancy_store (tenancy : Tenancy pool holds) (holder : holds key = some address) (value : α) :
    Tenancy (pool.store address value) holds ∧
      tenant (pool.store address value) holds = Function.update (tenant pool holds) key (some value) := by
  obtain ⟨before, found⟩ := tenancy.occupied key address holder
  have filled : ∀ own, (pool.store address value).item own = none ↔ pool.item own = none := by
    intro own
    show Function.update pool.item address (some value) own = none ↔ _
    by_cases here : own = address
    · subst here
      simp [found]
    · rw [Function.update_of_ne here]
  have full : ∀ own value', (pool.store address value).item own = some value' → ∃ before, pool.item own = some before := by
    intro own value' inside
    cases outside : pool.item own with
    | none =>
      rw [(filled own).mpr outside] at inside
      cases inside
    | some before => exact ⟨before, rfl⟩
  constructor
  · refine { occupied := ?_, single := tenancy.single, held := ?_, vacant := ?_, nodup := tenancy.nodup, below := ?_ }
    · intro other own holder'
      obtain ⟨value', inside⟩ := tenancy.occupied other own holder'
      exact Option.ne_none_iff_exists'.mp fun outside => by rw [(filled own).mp outside] at inside; cases inside
    · intro own value' inside
      obtain ⟨before, inside⟩ := full own value' inside
      exact tenancy.held own before inside
    · intro own
      rw [filled]
      exact tenancy.vacant own
    · intro own value' inside
      obtain ⟨before, inside⟩ := full own value' inside
      exact tenancy.below own before inside
  · funext other
    show (holds other).bind (Function.update pool.item address (some value)) = _
    by_cases same : other = key
    · subst same
      simp [holder]
    · rw [Function.update_of_ne same]
      show _ = (holds other).bind pool.item
      cases holder' : holds other with
      | none => rfl
      | some own =>
        have apart : own ≠ address := by
          rintro rfl
          exact same (tenancy.single other key own holder' holder)
        exact Function.update_of_ne apart _ _

theorem tenancy_destroy (tenancy : Tenancy pool holds) (holder : holds key = some address) :
    Tenancy (pool.destroy address) (Function.update holds key none) ∧
      tenant (pool.destroy address) (Function.update holds key none) = Function.update (tenant pool holds) key none := by
  obtain ⟨before, found⟩ := tenancy.occupied key address holder
  have others : ∀ other own, Function.update holds key none other = some own →
      holds other = some own ∧ own ≠ address := by
    intro other own holder'
    have differ : other ≠ key := by
      rintro rfl
      rw [Function.update_self] at holder'
      cases holder'
    rw [Function.update_of_ne differ] at holder'
    refine ⟨holder', ?_⟩
    rintro rfl
    exact differ (tenancy.single other key own holder' holder)
  have kept : ∀ own value', (pool.destroy address).item own = some value' → own ≠ address ∧ pool.item own = some value' := by
    intro own value' inside
    have differ : own ≠ address := by
      rintro rfl
      simp [SlotPool.destroy] at inside
    exact ⟨differ, (Function.update_of_ne differ _ _).symm.trans inside⟩
  constructor
  · refine { occupied := ?_, single := ?_, held := ?_, vacant := ?_, nodup := ?_, below := ?_ }
    · intro other own holder'
      obtain ⟨holder', differ⟩ := others other own holder'
      obtain ⟨value', inside⟩ := tenancy.occupied other own holder'
      exact ⟨value', (Function.update_of_ne differ _ _).trans inside⟩
    · intro first second own first_holds second_holds
      exact tenancy.single first second own (others first own first_holds).1 (others second own second_holds).1
    · intro own value' inside
      obtain ⟨differ, inside⟩ := kept own value' inside
      obtain ⟨other, holder'⟩ := tenancy.held own value' inside
      refine ⟨other, (Function.update_of_ne ?_ _ _).trans holder'⟩
      rintro rfl
      exact differ (Option.some.inj (holder'.symm.trans holder))
    · intro own
      show own ∈ address :: pool.free ↔ own < pool.count ∧ Function.update pool.item address none own = none
      rw [List.mem_cons, tenancy.vacant]
      by_cases here : own = address
      · subst here
        simp [tenancy.below own before found]
      · simp [here]
    · apply List.nodup_cons.mpr ⟨?_, tenancy.nodup⟩
      intro free
      rw [((tenancy.vacant address).mp free).2] at found
      cases found
    · intro own value' inside
      exact tenancy.below own value' (kept own value' inside).2
  · funext other
    by_cases same : other = key
    · subst same
      simp [tenant]
    · rw [Function.update_of_ne same]
      show (Function.update holds key none other).bind (pool.destroy address).item = (holds other).bind pool.item
      rw [Function.update_of_ne same]
      cases holder' : holds other with
      | none => rfl
      | some own =>
        have apart : own ≠ address := by
          rintro rfl
          exact same (tenancy.single other key own holder' holder)
        exact Function.update_of_ne apart _ _

end Operations

end Machine
