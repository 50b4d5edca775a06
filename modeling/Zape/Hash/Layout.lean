import Mathlib.Data.List.Perm.Subperm
import Zape.Hash.Table
import Zape.Machine.DoubleList
import Zape.Machine.Segment

/-! The items of a table are in one doubly linked list, and each bucket links those of its hash in the same order. -/
namespace ZapeProof

open Machine ZapeModel

variable {ι κ ν : Type}

/-- Keys with the same place are one key to the table. -/
def place (keys : HashKey ι κ ν) (size : Nat) (key : κ) : Nat × ν := (keys.hash key % size, keys.fold key)

def chained (table : HashTable κ) : Nat → Option Nat := fun address => (table.node address).bind (·.next)

def listNext (table : HashTable κ) : Nat → Option Nat := fun address => (table.node address).bind (·.lnext)

def listPrev (table : HashTable κ) : Nat → Option Nat := fun address => (table.node address).bind (·.lprev)

def entry (table : HashTable κ) : Nat → Option (κ × HashContent) :=
  fun address => (table.node address).map fun item => (item.key, item.content)

def inBucket (keys : HashKey ι κ ν) (table : HashTable κ) (index address : Nat) : Bool :=
  (entry table address).any fun pair => (place keys table.size pair.1).1 == index

def bucket (keys : HashKey ι κ ν) (table : HashTable κ) (order : List Nat) (index : Nat) : List Nat :=
  order.filter (inBucket keys table index)

/-- The two linked structures over the items at these addresses. -/
structure Layout (keys : HashKey ι κ ν) (table : HashTable κ) (order : List Nat) : Prop where
  double : Double (listNext table) (listPrev table) none table.first order
  chains : ∀ index, Segment (chained table) (table.table index) (bucket keys table order index) none
  nodup : order.Nodup
  here : ∀ address, address ∈ order ↔ ∃ pair, entry table address = some pair
  below : ∀ address ∈ order, address < table.count
  distinct : ∀ address other pair pair', entry table address = some pair → entry table other = some pair' →
    place keys table.size pair.1 = place keys table.size pair'.1 → address = other

/-- Relinking changes neither the keys nor the contents, nor the rest of the table. -/
structure Relinks (old new : HashTable κ) : Prop where
  entries : entry new = entry old
  size : new.size = old.size
  count : new.count = old.count
  cleaner : new.cleaner = old.cleaner
  cleaned : new.cleaned = old.cleaned

section Nodes

variable {keys : HashKey ι κ ν} {table new : HashTable κ} {order : List Nat} {address : Nat} {item : HashItem κ}

theorem entry_some (node : table.node address = some item) : entry table address = some (item.key, item.content) := by
  rw [entry, node]
  rfl

theorem node_of_entry {pair : κ × HashContent} (here : entry table address = some pair) :
    ∃ item, table.node address = some item ∧ (item.key, item.content) = pair :=
  Option.map_eq_some_iff.mp here

theorem Layout.node (layout : Layout keys table order) (member : address ∈ order) :
    ∃ item, table.node address = some item := by
  obtain ⟨pair, here⟩ := (layout.here address).mp member
  obtain ⟨item, node, -⟩ := node_of_entry here
  exact ⟨item, node⟩

theorem bind_update {β : Type} (memory : Nat → Option (HashItem κ)) (value : Option (HashItem κ))
    (part : HashItem κ → Option β) :
    (fun other => (Function.update memory address value other).bind part) =
      Function.update (fun other => (memory other).bind part) address (value.bind part) := by
  funext other
  by_cases same : other = address
  · subst same
    simp
  · simp [same]

theorem map_update_self {β : Type} {memory : Nat → Option (HashItem κ)} {part : HashItem κ → β} {value : HashItem κ}
    (node : memory address = some item) (same : part value = part item) :
    (fun other => (Function.update memory address (some value) other).map part) = fun other => (memory other).map part := by
  funext other
  by_cases here : other = address
  · subst here
    simp [node, same]
  · simp [here]

theorem update_link {part : HashItem κ → Option Nat} (node : table.node address = some item) (pointer : Option Nat)
    (same : pointer = part item) :
    Function.update (fun other => (table.node other).bind part) address pointer =
      fun other => (table.node other).bind part := by
  apply Function.update_eq_self_iff.mpr
  rw [same, node]
  rfl

theorem write_item (node : table.node address = some item) (change : HashItem κ → HashItem κ) :
    table.write address change =
      .ok { table with node := Function.update table.node address (some (change item)) } := by
  rw [HashTable.write, node]

theorem relinks_write (node : table.node address = some item) {change : HashItem κ → HashItem κ}
    (key : (change item).key = item.key) (content : (change item).content = item.content) :
    Relinks table { table with node := Function.update table.node address (some (change item)) } where
  entries := map_update_self node (by rw [key, content])
  size := rfl
  count := rfl
  cleaner := rfl
  cleaned := rfl

theorem Relinks.trans {middle : HashTable κ} (first : Relinks table middle) (second : Relinks middle new) :
    Relinks table new where
  entries := second.entries.trans first.entries
  size := second.size.trans first.size
  count := second.count.trans first.count
  cleaner := second.cleaner.trans first.cleaner
  cleaned := second.cleaned.trans first.cleaned

theorem inBucket_congr {other : HashTable κ} (entries : entry other address = entry table address)
    (size : other.size = table.size) (index : Nat) : inBucket keys other index address = inBucket keys table index address := by
  rw [inBucket, inBucket, entries, size]

theorem inBucket_iff {pair : κ × HashContent} (here : entry table address = some pair) (index : Nat) :
    inBucket keys table index address = true ↔ keys.hash pair.1 % table.size = index := by
  rw [inBucket, here, Option.any_some, beq_iff_eq]
  rfl

theorem bucket_apart {index index' : Nat} (member : address ∈ bucket keys table order index)
    (member' : address ∈ bucket keys table order index') : index = index' := by
  have inside := (List.mem_filter.mp member).2
  have inside' := (List.mem_filter.mp member').2
  cases here : entry table address with
  | none =>
    rw [inBucket, here] at inside
    cases inside
  | some pair => exact ((inBucket_iff here index).mp inside).symm.trans ((inBucket_iff here index').mp inside')

theorem Layout.length_le (layout : Layout keys table order) : order.length ≤ table.count := by
  have inside : order ⊆ List.range table.count := fun address member => List.mem_range.mpr (layout.below address member)
  have bounded := (layout.nodup.subperm inside).length_le
  rwa [List.length_range] at bounded

end Nodes

section Searching

variable {keys : HashKey ι κ ν} {table : HashTable κ} {order list : List Nat}

/-- A search along a chain ends, and comes to the first item whose key is the same. -/
theorem search_ends (key : κ) {start prev : Option Nat} {left : Nat} (chain : Segment (chained table) start list none)
    (allocated : ∀ address ∈ list, ∃ item, table.node address = some item) (enough : list.length ≤ left) :
    (keys.search table key left prev start = .ok none ∧
      ∀ address ∈ list, ∀ item, table.node address = some item → keys.fold item.key ≠ keys.fold key) ∨
    ∃ before address item after, list = before ++ address :: after ∧ table.node address = some item ∧
      keys.fold item.key = keys.fold key ∧
      keys.search table key left prev start =
        .ok (some { address, item, prev := if before = [] then prev else before.getLast? }) := by
  induction list generalizing start prev left with
  | nil =>
    cases (show start = none from chain)
    left
    exact ⟨by cases left <;> rfl, by simp⟩
  | cons address list ih =>
    obtain ⟨rfl, later⟩ := chain
    obtain ⟨item, node⟩ := allocated address (by simp)
    obtain ⟨left, rfl⟩ : ∃ rest, left = rest + 1 := ⟨left - 1, by simp only [List.length_cons] at enough; omega⟩
    have step : keys.search table key (left + 1) prev (some address) =
        if keys.same item.key key then .ok (some { address, item, prev })
        else keys.search table key left (some address) item.next := by
      simp only [HashKey.search, node]
    rw [step]
    by_cases same : keys.same item.key key = true
    · right
      rw [if_pos same]
      exact ⟨[], address, item, list, rfl, node, (keys.same_iff _ _).mp same, rfl⟩
    · rw [if_neg same]
      have next : chained table address = item.next := by
        rw [chained, node]
        rfl
      rw [next] at later
      have shorter : list.length ≤ left := by simpa using enough
      rcases @ih item.next (some address) left later (fun other member => allocated other (by simp [member])) shorter with
        ⟨ended, nowhere⟩ | ⟨before, other, found, after, rfl, node', same', ended⟩
      · left
        refine ⟨ended, ?_⟩
        intro other member found node'
        rcases List.mem_cons.mp member with rfl | later
        · cases node.symm.trans node'
          exact fun folds => same ((keys.same_iff _ _).mpr folds)
        · exact nowhere other later found node'
      · right
        refine ⟨address :: before, other, found, after, rfl, node', same', ?_⟩
        rw [ended, if_neg (List.cons_ne_nil address before)]
        cases before with
        | nil => rfl
        | cons second before => rfl

/-- Nothing has the place of the key, or the item with that place is found in its bucket. -/
theorem find_ends (layout : Layout keys table order) (key : κ) :
    (keys.find table key = .ok none ∧
      ∀ address pair, entry table address = some pair → place keys table.size pair.1 ≠ place keys table.size key) ∨
    ∃ before address item after, bucket keys table order (keys.keyHash table key) = before ++ address :: after ∧
      table.node address = some item ∧ place keys table.size item.key = place keys table.size key ∧
      keys.find table key = .ok (some { address, item, prev := before.getLast? }) := by
  have chain := layout.chains (keys.keyHash table key)
  have allocated : ∀ address ∈ bucket keys table order (keys.keyHash table key), ∃ item, table.node address = some item :=
    fun address member => layout.node (List.mem_filter.mp member).1
  have enough : (bucket keys table order (keys.keyHash table key)).length ≤ table.count :=
    (List.length_filter_le _ _).trans layout.length_le
  rcases @search_ends ι κ ν keys table _ key _ none _ chain allocated enough with
    ⟨ended, nowhere⟩ | ⟨before, address, item, after, split, node, same, ended⟩
  · left
    refine ⟨ended, ?_⟩
    intro address pair here same
    obtain ⟨item, node, rfl⟩ := node_of_entry here
    have inside : address ∈ bucket keys table order (keys.keyHash table key) :=
      List.mem_filter.mpr ⟨(layout.here address).mpr ⟨_, here⟩, (inBucket_iff here _).mpr (congrArg Prod.fst same)⟩
    exact nowhere address inside item node (congrArg Prod.snd same)
  · right
    have inside : address ∈ bucket keys table order (keys.keyHash table key) := by
      rw [split]
      simp
    have hashed := (inBucket_iff (entry_some node) _).mp (List.mem_filter.mp inside).2
    refine ⟨before, address, item, after, split, node, Prod.ext hashed same, ?_⟩
    have prev : (if before = [] then none else before.getLast?) = before.getLast? := by
      split
      · rename_i empty
        rw [empty]
        rfl
      · rfl
    rw [HashKey.find, ended, prev]

end Searching

end ZapeProof
