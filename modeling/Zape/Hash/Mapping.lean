import Zape.Hash.Upkeep
import Zape.Machine.Runs

/-! A table of integers is a finite map, and its list enumerates it. -/
namespace ZapeProof

open Machine ZapeModel

variable {ι κ ν μ : Type}

/-- The map that the calls build up, with these names of its keys. -/
def finiteMap [DecidableEq ν] (name : ι → Option ν) (calls : List (HashCall ι)) : ν → Option HashContent :=
  calls.foldl (mapCall name) fun _ => none

def callKey : HashCall ι → ι
  | .append key _ => key
  | .erase key => key

def callContent : HashCall ι → Option HashContent
  | .append _ content => some content
  | .erase _ => none

section Maps

variable [DecidableEq ν] [DecidableEq μ] {name : ι → Option ν} {calls : List (HashCall ι)}

theorem finiteMap_snoc (call : HashCall ι) : finiteMap name (calls ++ [call]) = mapCall name (finiteMap name calls) call := by
  rw [finiteMap, List.foldl_append]
  rfl

theorem mapCall_here {spot : ν} {call : HashCall ι} (named : name (callKey call) = some spot) (map : ν → Option HashContent) :
    mapCall name map call spot = callContent call := by
  cases call with
  | append key content =>
    have there : name key = some spot := named
    simp only [mapCall, there, Function.update_self, callContent]
  | erase key =>
    have there : name key = some spot := named
    simp only [mapCall, there, Function.update_self, callContent]

theorem mapCall_elsewhere {spot : ν} {call : HashCall ι} (other : name (callKey call) ≠ some spot)
    (map : ν → Option HashContent) : mapCall name map call spot = map spot := by
  cases call with
  | append key content =>
    cases there : name key with
    | none => simp only [mapCall, there]
    | some elsewhere =>
      have apart : spot ≠ elsewhere := fun same => other (there.trans (congrArg some same.symm))
      simp only [mapCall, there, Function.update_of_ne apart]
  | erase key =>
    cases there : name key with
    | none => simp only [mapCall, there]
    | some elsewhere =>
      have apart : spot ≠ elsewhere := fun same => other (there.trans (congrArg some same.symm))
      simp only [mapCall, there, Function.update_of_ne apart]

/-- Two ways to name the keys lead to the same content where the calls cannot tell them apart. -/
theorem finiteMap_congr {name' : ι → Option μ} {spot : ν} {spot' : μ}
    (same : ∀ call ∈ calls, name (callKey call) = some spot ↔ name' (callKey call) = some spot') :
    finiteMap name calls spot = finiteMap name' calls spot' := by
  induction calls using List.reverseRecOn with
  | nil => rfl
  | append_singleton calls call ih =>
    have earlier := ih fun call member => same call (by simp [member])
    have last := same call (by simp)
    rw [finiteMap_snoc, finiteMap_snoc]
    by_cases named : name (callKey call) = some spot
    · rw [mapCall_here named, mapCall_here (last.mp named)]
    · rw [mapCall_elsewhere named, mapCall_elsewhere (fun named' => named (last.mpr named')), earlier]

end Maps

section Runs

variable [DecidableEq ν] {keys : HashKey ι κ ν} {table : HashTable κ}

/-- A run does not fail, and builds up the map of the places. -/
theorem run_tabulates {map : Nat × ν → Option HashContent} (tabulates : Tabulates keys table map) (calls : List (HashCall ι)) :
    ∃ last, runAll keys.step table calls = .ok last ∧
      Tabulates keys last (calls.foldl (mapCall (placed keys table.size)) map) ∧ last.size = table.size := by
  induction calls generalizing table map with
  | nil => exact ⟨table, rfl, tabulates, rfl⟩
  | cons call calls ih =>
    obtain ⟨new, ended, stepped⟩ := stepped_call tabulates call
    obtain ⟨last, reached, kept, size⟩ := ih stepped.toTabulates
    rw [stepped.size] at kept size
    refine ⟨last, ?_, kept, size⟩
    rw [runAll, ended]
    exact reached

theorem run_init (size : Nat) (sized : 0 < size) (calls : List (HashCall ι)) :
    ∃ table, runAll keys.step (HashTable.hashtblInitWithSize size sized) calls = .ok table ∧
      Tabulates keys table (finiteMap (placed keys size) calls) ∧ table.size = size :=
  run_tabulates (tabulates_init size sized) calls

end Runs

section Enumeration

variable {keys : HashKey ι κ ν} {table : HashTable κ} {order : List Nat} {map : Nat × ν → Option HashContent}

theorem enumerate_double {before start : Option Nat} {left : Nat}
    (double : Double (listNext table) (listPrev table) before start order)
    (allocated : ∀ address ∈ order, ∃ item, table.node address = some item) (enough : order.length ≤ left) :
    ∃ items, table.enumerate left start = .ok items ∧ order.map table.node = items.map some := by
  induction order generalizing before start left with
  | nil =>
    cases (show start = none from double)
    exact ⟨[], by cases left <;> rfl, rfl⟩
  | cons address order ih =>
    obtain ⟨rfl, -, later⟩ := double
    obtain ⟨item, node⟩ := allocated address (by simp)
    obtain ⟨left, rfl⟩ : ∃ rest, left = rest + 1 := ⟨left - 1, by simp only [List.length_cons] at enough; omega⟩
    have next : listNext table address = item.lnext := by
      rw [listNext, node]
      rfl
    rw [next] at later
    obtain ⟨items, ended, nodes⟩ := ih later (fun other member => allocated other (by simp [member])) (by simpa using enough)
    refine ⟨item :: items, ?_, ?_⟩
    · simp only [HashTable.enumerate, node, ended]
      rfl
    · rw [List.map_cons, List.map_cons, node, nodes]

/-- Where `lnext` leads from an item, `lprev` leads back. -/
theorem links_inverse (layout : Layout keys table order) (address other : Nat) :
    listNext table address = some other ↔ listPrev table other = some address := by
  have member_next : ∀ address other, listNext table address = some other → address ∈ order := by
    intro address other points
    rw [listNext] at points
    obtain ⟨item, node, -⟩ := Option.bind_eq_some_iff.mp points
    exact (layout.here address).mpr ⟨_, entry_some node⟩
  have member_prev : ∀ address other, listPrev table address = some other → address ∈ order := by
    intro address other points
    rw [listPrev] at points
    obtain ⟨item, node, -⟩ := Option.bind_eq_some_iff.mp points
    exact (layout.here address).mpr ⟨_, entry_some node⟩
  constructor
  · intro points
    obtain ⟨left, right, rfl⟩ := List.append_of_mem (member_next address other points)
    have onward := double_next layout.double
    rw [points] at onward
    obtain ⟨right, rfl⟩ := List.head?_eq_some_iff.mp onward.symm
    have double : Double (listNext table) (listPrev table) none table.first ((left ++ [address]) ++ other :: right) := by
      rw [List.append_assoc]
      exact layout.double
    rw [double_prev double, if_neg (by simp), List.getLast?_concat]
  · intro points
    obtain ⟨left, right, rfl⟩ := List.append_of_mem (member_prev other address points)
    have back := double_prev layout.double
    rw [points] at back
    rcases List.eq_nil_or_concat' left with rfl | ⟨left, last, rfl⟩
    · cases back
    · rw [if_neg (by simp), List.getLast?_concat] at back
      cases back
      have double : Double (listNext table) (listPrev table) none table.first (left ++ address :: (other :: right)) := by
        have whole := layout.double
        rwa [List.append_assoc] at whole
      rw [double_next double, List.head?_cons]

/-- The enumeration and the map have the same keys with the same contents. -/
theorem enumerate_map (layout : Layout keys table order) (agrees : HoldsMap keys table map) :
    ∃ items, table.enumerate table.count table.first = .ok items ∧ order.map table.node = items.map some ∧
      (items.map fun item => place keys table.size item.key).Nodup ∧
      ∀ spot content, map spot = some content ↔
        ∃ item ∈ items, place keys table.size item.key = spot ∧ item.content = content := by
  obtain ⟨items, ended, nodes⟩ :=
    enumerate_double layout.double (fun address member => layout.node member) layout.length_le
  have at_address : ∀ address ∈ order, ∀ item, table.node address = some item → item ∈ items := by
    intro address member item node
    have inside : some item ∈ items.map some := by
      rw [← nodes, ← node]
      exact List.mem_map_of_mem member
    exact (List.mem_map_of_injective (Option.some_injective _)).mp inside
  have has_address : ∀ item ∈ items, ∃ address ∈ order, table.node address = some item := by
    intro item member
    have inside : some item ∈ order.map table.node := nodes ▸ List.mem_map_of_mem member
    exact List.mem_map.mp inside
  refine ⟨items, ended, nodes, ?_, ?_⟩
  · let placeAt := fun node : Option (HashItem κ) => node.map fun item => place keys table.size item.key
    have apart : ((order.map table.node).map placeAt).Nodup := by
      rw [List.map_map]
      apply List.Nodup.map_on ?_ layout.nodup
      intro address member other member' same
      obtain ⟨item, node⟩ := layout.node member
      obtain ⟨item', node'⟩ := layout.node member'
      simp only [Function.comp_apply, placeAt, node, node', Option.map_some, Option.some.injEq] at same
      exact layout.distinct address other _ _ (entry_some node) (entry_some node') same
    rw [nodes, List.map_map] at apart
    have some_place : (placeAt ∘ some : HashItem κ → _) = some ∘ fun item => place keys table.size item.key := rfl
    rw [some_place, ← List.map_map] at apart
    exact apart.of_map some
  · intro spot content
    rw [agrees spot content]
    constructor
    · rintro ⟨address, pair, here, there, rfl⟩
      obtain ⟨item, node, rfl⟩ := node_of_entry here
      exact ⟨item, at_address address ((layout.here address).mpr ⟨_, here⟩) item node, there, rfl⟩
    · rintro ⟨item, member, there, rfl⟩
      obtain ⟨address, -, node⟩ := has_address item member
      exact ⟨address, _, entry_some node, there, rfl⟩

end Enumeration

section Integers

/-- The table of integers is a finite map; following `lnext` from the first item enumerates its keys once each, with `lprev`
    the way back, and every bucket chains those items of the enumeration that hash to it. -/
theorem hashtbl64_refines (size : Nat) (sized : 0 < size) (calls : List (HashCall (BitVec 64))) :
    ∃ (table : HashTable (BitVec 64)) (order : List Nat) (items : List (HashItem (BitVec 64))),
      runAll hashtblStep64 (HashTable.hashtblInitWithSize size sized) calls = .ok table ∧
      (∀ key, hashtblSeek64 table key = .ok (finiteMap some calls key).join) ∧
      table.enumerate table.count table.first = .ok items ∧ order.map table.node = items.map some ∧
      (items.map (·.key)).Nodup ∧
      (∀ key content, finiteMap some calls key = some content ↔ ∃ item ∈ items, item.key = key ∧ item.content = content) ∧
      (∀ first, table.first = some first → listPrev table first = none) ∧
      (∀ address other, listNext table address = some other ↔ listPrev table other = some address) ∧
      ∀ index, index < size →
        Segment (chained table) (table.table index) (order.filter (inBucket integerKey table index)) none := by
  have same : hashtblStep64 = integerKey.step := by
    funext table call
    cases call <;> rfl
  obtain ⟨table, reached, ⟨⟨order, layout⟩, agrees⟩, rfl⟩ := @run_init _ _ _ _ integerKey size sized calls
  have map : ∀ key, finiteMap (placed integerKey table.size) calls (place integerKey table.size key) =
      finiteMap some calls key := by
    intro key
    apply finiteMap_congr
    intro call _
    constructor
    · intro named
      exact congrArg (Option.map Prod.snd) named
    · intro named
      exact congrArg (Option.map (place integerKey table.size)) named
  obtain ⟨items, ended, nodes, nodup, stored⟩ := enumerate_map layout agrees
  refine ⟨table, order, items, ?_, ?_, ended, nodes, ?_, ?_, ?_, links_inverse layout, fun index _ => layout.chains index⟩
  · rw [same]
    exact reached
  · intro key
    rw [← map key]
    exact seek_map ⟨⟨order, layout⟩, agrees⟩ key
  · have keysOnly : (items.map (·.key)).map (place integerKey table.size) =
        items.map fun item => place integerKey table.size item.key := List.map_map
    rw [← keysOnly] at nodup
    exact nodup.of_map _
  · intro key content
    have folds : ∀ item : HashItem (BitVec 64), place integerKey table.size item.key = place integerKey table.size key ↔
        item.key = key := by
      intro item
      constructor
      · exact fun same => congrArg Prod.snd same
      · exact fun same => congrArg _ same
    simp only [← map key, stored, folds]
  · intro first head
    have whole := layout.double
    rw [double_head layout.double] at head
    obtain ⟨rest, rfl⟩ := List.head?_eq_some_iff.mp head
    exact whole.2.1

/-- Both keys are in one bucket; the item in front is erased. -/
theorem hashtbl64_collision :
    ∃ table, runAll hashtblStep64 (HashTable.hashtblInitWithSize 2 (by decide))
        [.append 1#64 (some 10), .append 3#64 (some 30), .erase 3#64] = .ok table ∧
      hashtblSeek64 table 1#64 = .ok (some 10) ∧ hashtblSeek64 table 3#64 = .ok none := by
  obtain ⟨table, -, -, reached, seeks, -⟩ :=
    hashtbl64_refines 2 (by decide) [.append 1#64 (some 10), .append 3#64 (some 30), .erase 3#64]
  exact ⟨table, reached, seeks 1#64, seeks 3#64⟩

end Integers

end ZapeProof
