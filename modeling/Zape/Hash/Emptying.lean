import Zape.Hash.Cleaning

/-! `hashtbl_free`, and what the cleaner of a table gets over its whole life. -/
namespace ZapeModel

variable {κ : Type}

namespace HashTable

/-- The loop over one bucket: `hNext` is read before the item is freed. -/
def freeItems : Nat → Option Nat → HashTable κ → Except HashFault (HashTable κ)
  | _, none, table => .ok table
  | 0, some _, _ => .error .endless
  | left + 1, some address, table =>
    match table.node address with
    | none => .error .wildPointer
    | some hTmp => freeItems left hTmp.next ((table.clean hTmp).release address)

def freeBuckets : List Nat → HashTable κ → Except HashFault (HashTable κ)
  | [], table => .ok table
  | index :: indexes, table =>
    (freeItems table.count (table.table index) table).bind fun table => freeBuckets indexes table

/-- Only the memory of the items is left to look at. -/
def hashtblFree (table : HashTable κ) : Except HashFault (HashTable κ) := freeBuckets (List.range table.size) table

end HashTable

end ZapeModel

namespace ZapeProof

open Machine ZapeModel

variable {ι κ ν : Type}

/-- The items at these addresses are freed, and the cleaner got them in this order. -/
structure Freed (table : HashTable κ) (gone : List Nat) (items : List (HashItem κ)) (new : HashTable κ) : Prop where
  node : ∀ address, new.node address = if address ∈ gone then none else table.node address
  handed : gone.map table.node = items.map some
  cleaned : new.cleaned = (if table.cleaner then items.reverse else []) ++ table.cleaned
  cleaner : new.cleaner = table.cleaner
  heads : new.table = table.table
  counted : new.count = table.count

section Buckets

variable {table middle new : HashTable κ} {gone later : List Nat} {items others : List (HashItem κ)}

theorem freed_refl (table : HashTable κ) : Freed table [] [] table where
  node address := by simp
  handed := rfl
  cleaned := by simp
  cleaner := rfl
  heads := rfl
  counted := rfl

theorem Freed.there (freed : Freed table gone items middle) {address : Nat} {item : HashItem κ}
    (node : middle.node address = some item) : address ∉ gone ∧ table.node address = some item := by
  rw [freed.node] at node
  split at node
  · cases node
  · rename_i kept
    exact ⟨kept, node⟩

theorem Freed.trans (first : Freed table gone items middle) (second : Freed middle later others new) :
    Freed table (gone ++ later) (items ++ others) new where
  node address := by
    rw [second.node, first.node]
    by_cases now : address ∈ later
    · simp [now]
    · simp [now]
  handed := by
    have same : later.map table.node = later.map middle.node := by
      apply List.map_congr_left
      intro address member
      have inside : middle.node address ∈ others.map some := second.handed ▸ List.mem_map_of_mem member
      obtain ⟨item, -, node⟩ := List.mem_map.mp inside
      rw [← node, (first.there node.symm).2]
    rw [List.map_append, List.map_append, first.handed, same, second.handed]
  cleaned := by
    rw [second.cleaned, first.cleaned, first.cleaner]
    split <;> simp
  cleaner := second.cleaner.trans first.cleaner
  heads := second.heads.trans first.heads
  counted := second.counted.trans first.counted

theorem freed_item {address : Nat} {item : HashItem κ} (node : table.node address = some item) :
    Freed table [address] [item] ((table.clean item).release address) where
  node other := by
    simp only [clean_fields, HashTable.release, Function.update_apply, List.mem_singleton]
  handed := by rw [List.map_singleton, node, List.map_singleton]
  cleaned := by
    simp only [clean_fields, HashTable.release]
    split <;> rfl
  cleaner := by simp only [clean_fields, HashTable.release]
  heads := by simp only [clean_fields, HashTable.release]
  counted := by simp only [clean_fields, HashTable.release]

/-- A chain in which no item comes twice is freed to its end. -/
theorem freeItems_freed {list : List Nat} {start : Option Nat} {left : Nat}
    (chain : Segment (chained table) start list none) (allocated : ∀ address ∈ list, ∃ item, table.node address = some item)
    (nodup : list.Nodup) (enough : list.length ≤ left) :
    ∃ items new, HashTable.freeItems left start table = .ok new ∧ Freed table list items new := by
  induction list generalizing start left table with
  | nil =>
    cases (show start = none from chain)
    exact ⟨[], table, by cases left <;> rfl, freed_refl table⟩
  | cons address list ih =>
    obtain ⟨rfl, later⟩ := chain
    obtain ⟨item, node⟩ := allocated address (by simp)
    obtain ⟨left, rfl⟩ : ∃ rest, left = rest + 1 := ⟨left - 1, by simp only [List.length_cons] at enough; omega⟩
    have outside := (List.nodup_cons.mp nodup).1
    have freed := freed_item node
    have kept : ∀ other ∈ list, ((table.clean item).release address).node other = table.node other := by
      intro other member
      have apart : other ∉ [address] := by
        rw [List.mem_singleton]
        rintro rfl
        exact outside member
      rw [freed.node, if_neg apart]
    have next : chained table address = item.next := by
      rw [chained, node]
      rfl
    rw [next] at later
    have chain' : Segment (chained ((table.clean item).release address)) item.next list none := by
      apply (segment_congr _).mpr later
      intro other member
      rw [chained, chained, kept other member]
    obtain ⟨items, new, ended, rest⟩ := ih chain' (by
      intro other member
      rw [kept other member]
      exact allocated other (by simp [member])) (List.nodup_cons.mp nodup).2 (by simpa using enough)
    refine ⟨item :: items, new, ?_, freed.trans rest⟩
    simp only [HashTable.freeItems, node]
    exact ended

variable {keys : HashKey ι κ ν} {order : List Nat}

theorem freeBuckets_freed (layout : Layout keys table order) (indexes : List Nat) (nodup : indexes.Nodup)
    (freed : Freed table gone items middle)
    (apart : ∀ index ∈ indexes, ∀ address ∈ bucket keys table order index, address ∉ gone) :
    ∃ others last, HashTable.freeBuckets indexes middle = .ok last ∧
      Freed table (gone ++ indexes.flatMap (bucket keys table order)) (items ++ others) last := by
  induction indexes generalizing gone items middle with
  | nil =>
    refine ⟨[], middle, rfl, ?_⟩
    rw [List.flatMap_nil, List.append_nil, List.append_nil]
    exact freed
  | cons index indexes ih =>
    have kept : ∀ address ∈ bucket keys table order index, middle.node address = table.node address := by
      intro address member
      rw [freed.node, if_neg (apart index (by simp) address member)]
    have chain : Segment (chained middle) (middle.table index) (bucket keys table order index) none := by
      rw [freed.heads]
      apply (segment_congr _).mpr (layout.chains index)
      intro address member
      rw [chained, chained, kept address member]
    have allocated : ∀ address ∈ bucket keys table order index, ∃ item, middle.node address = some item := by
      intro address member
      rw [kept address member]
      exact layout.node (List.mem_filter.mp member).1
    have enough : (bucket keys table order index).length ≤ middle.count := by
      rw [freed.counted]
      exact (List.length_filter_le _ _).trans layout.length_le
    obtain ⟨here, next, ended, gone'⟩ := freeItems_freed chain allocated (layout.nodup.filter _) enough
    obtain ⟨outside, nodup⟩ := List.nodup_cons.mp nodup
    obtain ⟨others, last, ended', freed'⟩ := ih nodup (freed.trans gone') (by
      intro later member address inside present
      rcases List.mem_append.mp present with before | now
      · exact apart later (by simp [member]) address inside before
      · cases bucket_apart inside now
        exact outside member)
    refine ⟨here ++ others, last, ?_, ?_⟩
    · rw [HashTable.freeBuckets, ended]
      exact ended'
    · rw [List.flatMap_cons, ← List.append_assoc, ← List.append_assoc]
      exact freed'

/-- The buckets hold every item once. -/
theorem buckets_perm (layout : Layout keys table order) :
    ((List.range table.size).flatMap (bucket keys table order)).Perm order := by
  apply (List.perm_ext_iff_of_nodup _ layout.nodup).mpr
  · intro address
    rw [List.mem_flatMap]
    constructor
    · rintro ⟨index, -, member⟩
      exact (List.mem_filter.mp member).1
    · intro member
      obtain ⟨pair, here⟩ := (layout.here address).mp member
      refine ⟨keys.hash pair.1 % table.size, List.mem_range.mpr (Nat.mod_lt _ table.sized), ?_⟩
      exact List.mem_filter.mpr ⟨member, (inBucket_iff here _).mpr rfl⟩
  · apply List.nodup_flatMap.mpr
    refine ⟨fun index _ => layout.nodup.filter _, ?_⟩
    apply List.nodup_range.imp
    intro index other differ address member member'
    exact differ (bucket_apart member member')

/-- The whole table is freed: each item that its list enumerates once, and the cleaner gets just these. -/
theorem hashtblFree_freed (layout : Layout keys table order) (enumerated : order.map table.node = items.map some) :
    ∃ (handed : List (HashItem κ)) (last : HashTable κ), table.hashtblFree = .ok last ∧ handed.Perm items ∧ (∀ address, last.node address = none) ∧
      last.cleaned = (if table.cleaner then handed.reverse else []) ++ table.cleaned := by
  obtain ⟨handed, last, ended, freed⟩ :=
    freeBuckets_freed layout (List.range table.size) List.nodup_range (freed_refl table) (by simp)
  rw [List.nil_append] at freed
  refine ⟨handed, last, ended, ?_, ?_, freed.cleaned⟩
  · have perm := (buckets_perm layout).map table.node
    rw [freed.handed, enumerated] at perm
    have values := perm.filterMap id
    simpa only [List.filterMap_map, Function.id_comp, Function.comp_def, id_eq, List.filterMap_some,
      List.nil_append] using values
  · intro address
    rw [freed.node]
    split
    · rfl
    · rename_i outside
      cases node : table.node address with
      | none => rfl
      | some item =>
        have member := (layout.here address).mpr ⟨_, entry_some node⟩
        exact absurd ((buckets_perm layout).mem_iff.mpr member) outside

end Buckets

/-- The contents that the calls store, of which there are none under `NULL`. -/
def storedContents (keys : HashKey ι κ ν) (calls : List (HashCall ι)) : List HashContent :=
  (calls.filter fun call => (keys.given (callKey call)).isSome).filterMap callContent

/-- Nothing is appended under a key that is still in the map. -/
def NeverOverwrites [DecidableEq ν] (keys : HashKey ι κ ν) (size : Nat) (calls : List (HashCall ι)) : Prop :=
  ∀ before key content after, calls = before ++ HashCall.append key content :: after →
    (placed keys size key).bind (finiteMap (placed keys size) before) = none

/-- A table with a cleaner, from its beginning to its end. -/
def hashLife (step : HashTable κ → HashCall ι → Except HashFault (HashTable κ)) (size : Nat) (sized : 0 < size)
    (calls : List (HashCall ι)) : Except HashFault (HashTable κ) :=
  (runAll step (HashTable.hashtblInitWithSize size sized).hashtblSetCleaner calls).bind HashTable.hashtblFree

section Lives

variable {keys : HashKey ι κ ν} {table new : HashTable κ} {map : Nat × ν → Option HashContent} {content : HashContent}

theorem tabulates_unique {map' : Nat × ν → Option HashContent} (first : Tabulates keys table map)
    (second : Tabulates keys table map') : map = map' := by
  funext spot
  apply Option.ext
  intro content
  exact (first.agrees spot content).trans (second.agrees spot content).symm

theorem storedContents_snoc (calls : List (HashCall ι)) (call : HashCall ι) :
    storedContents keys (calls ++ [call]) = storedContents keys calls ++ storedContents keys [call] := by
  rw [storedContents, List.filter_append, List.filterMap_append]
  rfl

theorem mem_storedContents_one {call : HashCall ι} :
    content ∈ storedContents keys [call] ↔ (keys.given (callKey call)).isSome = true ∧ callContent call = some content := by
  simp [storedContents, List.mem_filterMap]

theorem storedContents_sublist (calls : List (HashCall ι)) :
    (storedContents keys calls).Sublist (calls.filterMap callContent) :=
  List.filter_sublist.filterMap callContent

variable [DecidableEq ν]

theorem neverOverwrites_snoc {size : Nat} {calls : List (HashCall ι)} {call : HashCall ι} :
    NeverOverwrites keys size (calls ++ [call]) ↔ NeverOverwrites keys size calls ∧
      ∀ key content, call = .append key content →
        (placed keys size key).bind (finiteMap (placed keys size) calls) = none := by
  constructor
  · intro never
    constructor
    · rintro before key content after rfl
      exact never before key content (after ++ [call]) (by simp)
    · rintro key content rfl
      exact never calls key content [] rfl
  · rintro ⟨earlier, last⟩ before key content after split
    rcases List.eq_nil_or_concat' after with rfl | ⟨after, final, rfl⟩
    · obtain ⟨rfl, same⟩ := List.append_inj' split rfl
      exact last key content (List.singleton_inj.mp same)
    · rw [← List.cons_append, ← List.append_assoc] at split
      exact earlier before key content after (List.append_inj' split rfl).1

section Step

variable {call : HashCall ι} {old : HashTable κ}

/-- What a call leaves in the map. -/
theorem mapCall_holds {spot : Nat × ν} (stored : mapCall (placed keys old.size) map call spot = some content) :
    content ∈ storedContents keys [call] ∨ (placed keys old.size (callKey call) ≠ some spot ∧ map spot = some content) := by
  by_cases named : placed keys old.size (callKey call) = some spot
  · left
    rw [mapCall_here named] at stored
    obtain ⟨key, given, -⟩ := Option.map_eq_some_iff.mp named
    exact mem_storedContents_one.mpr ⟨by rw [given]; rfl, stored⟩
  · right
    rw [mapCall_elsewhere named] at stored
    exact ⟨named, stored⟩

/-- Nothing comes into the table or to the cleaner that was not there and that the call does not store. -/
theorem stepped_brings
    (stepped : HashStepped keys old new (mapCall (placed keys old.size) map call) (cleans keys old.size map call))
    (present : (∃ spot, mapCall (placed keys old.size) map call spot = some content) ∨ content ∈ cleanedContents new) :
    content ∈ storedContents keys [call] ∨ (∃ spot, map spot = some content) ∨ content ∈ cleanedContents old := by
  rcases present with ⟨spot, stored⟩ | cleaned
  · rcases @mapCall_holds _ _ _ keys map content _ call old spot stored with now | ⟨-, before⟩
    · exact .inl now
    · exact .inr (.inl ⟨spot, before⟩)
  · have parts : content ∈ (if old.cleaner then cleans keys old.size map call else []) ++ cleanedContents old :=
      stepped.cleaned ▸ cleaned
    rcases List.mem_append.mp parts with now | before
    · have passed : content ∈ cleans keys old.size map call := by
        split at now
        · exact now
        · cases now
      cases call with
      | append key appended =>
        left
        rw [cleans] at passed
        split at passed
        · rename_i overwritten
          obtain ⟨spot, named⟩ : ∃ spot, placed keys old.size key = some spot := by
            cases named : placed keys old.size key with
            | none => rw [named] at overwritten; cases overwritten
            | some spot => exact ⟨spot, rfl⟩
          obtain ⟨key', given, -⟩ := Option.map_eq_some_iff.mp named
          rw [List.mem_singleton] at passed
          exact mem_storedContents_one.mpr ⟨by rw [callKey, given]; rfl, by rw [callContent, passed]⟩
        · cases passed
      | erase key =>
        right
        left
        obtain ⟨spot, -, gone⟩ := Option.bind_eq_some_iff.mp (Option.mem_toList.mp passed)
        exact ⟨spot, gone⟩
    · exact .inr (.inr before)

/-- Without an overwriting, nothing leaves the table but to the cleaner. -/
theorem stepped_keeps (cleaner : old.cleaner = true)
    (stepped : HashStepped keys old new (mapCall (placed keys old.size) map call) (cleans keys old.size map call))
    (never : ∀ key content, call = .append key content → (placed keys old.size key).bind map = none)
    (present : content ∈ storedContents keys [call] ∨ (∃ spot, map spot = some content) ∨ content ∈ cleanedContents old) :
    (∃ spot, mapCall (placed keys old.size) map call spot = some content) ∨ content ∈ cleanedContents new := by
  have cleaned : cleanedContents new = cleans keys old.size map call ++ cleanedContents old := by
    have all := stepped.cleaned
    rw [if_pos cleaner] at all
    exact all
  rcases present with now | ⟨spot, stored⟩ | before
  · left
    obtain ⟨given, stores⟩ := mem_storedContents_one.mp now
    obtain ⟨key, given⟩ := Option.isSome_iff_exists.mp given
    refine ⟨place keys old.size key, ?_⟩
    rw [mapCall_here (by rw [placed, given]; rfl), stores]
  · by_cases named : placed keys old.size (callKey call) = some spot
    · cases call with
      | append key appended =>
        have absent := never key appended rfl
        rw [show placed keys old.size key = some spot from named, Option.bind_some, stored] at absent
        cases absent
      | erase key =>
        right
        rw [cleaned, cleans, show placed keys old.size key = some spot from named, Option.bind_some, stored]
        simp
    · left
      exact ⟨spot, (mapCall_elsewhere named map).trans stored⟩
  · right
    rw [cleaned]
    exact List.mem_append_right _ before

end Step

/-- Each content that was stored is in the map or with the cleaner, and no two places of these have the same. -/
def AllAccounted (keys : HashKey ι κ ν) (calls : List (HashCall ι)) (table : HashTable κ) : Prop :=
  (∃ displaced, Tended keys (calls.filterMap callContent) (finiteMap (placed keys table.size) calls)
    { table, displaced }) ∧
  ∀ content, (∃ spot, finiteMap (placed keys table.size) calls spot = some content) ∨ content ∈ cleanedContents table ↔
    content ∈ storedContents keys calls

/-- Some content that was stored is in the map no more, and the cleaner did not get it. -/
def Leaked (keys : HashKey ι κ ν) (calls : List (HashCall ι)) (table : HashTable κ) : Prop :=
  ∃ content ∈ storedContents keys calls, (∀ spot, finiteMap (placed keys table.size) calls spot ≠ some content) ∧
    content ∉ cleanedContents table

section Accounts

variable {calls : List (HashCall ι)} {call : HashCall ι}

theorem accounted_step (accounted : AllAccounted keys calls table)
    (stepped : HashStepped keys table new (mapCall (placed keys table.size) (finiteMap (placed keys table.size) calls) call)
      (cleans keys table.size (finiteMap (placed keys table.size) calls) call))
    (ended : keys.step table call = .ok new) (distinct : ((calls ++ [call]).filterMap callContent).Nodup)
    (never : ∀ key content, call = .append key content →
      (placed keys table.size key).bind (finiteMap (placed keys table.size) calls) = none) :
    AllAccounted keys (calls ++ [call]) new := by
  obtain ⟨⟨displaced, tended⟩, whole⟩ := accounted
  have cleaner : table.cleaner = true := tended.cleaner
  refine ⟨?_, ?_⟩
  · have kept : ∃ displaced map', Tended keys ((calls ++ [call]).filterMap callContent) map' { table := new, displaced } := by
      rw [List.filterMap_append] at distinct ⊢
      cases call with
      | append key content =>
        have fresh : content ∉ calls.filterMap callContent := by
          intro member
          exact (List.nodup_append.mp distinct).2.2 content member content (by simp [callContent]) rfl
        have appends : AppendsNew keys { table, displaced } (.append key content) := by
          show displaces keys table (.append key content) = []
          rw [displaces_map tended.tabulates, Option.toList_eq_nil_iff]
          exact never key content rfl
        obtain ⟨map', kept⟩ := tended_append tended fresh appends (by rw [historyStep, ended]; rfl)
        exact ⟨_, map', kept⟩
      | erase key =>
        obtain ⟨map', kept⟩ := tended_erase tended (by rw [historyStep, ended]; rfl)
        rw [show [HashCall.erase key].filterMap callContent = [] from rfl, List.append_nil]
        exact ⟨_, map', kept⟩
    obtain ⟨displaced, map', kept⟩ := kept
    have same := tabulates_unique kept.tabulates stepped.toTabulates
    subst same
    refine ⟨displaced, ?_⟩
    rw [stepped.size, finiteMap_snoc]
    exact kept
  · intro content
    rw [stepped.size, finiteMap_snoc, storedContents_snoc, List.mem_append, ← whole content]
    constructor
    · intro present
      exact (stepped_brings stepped present).symm
    · intro present
      exact stepped_keeps cleaner stepped never present.symm

theorem accounted_leaks (accounted : AllAccounted keys calls table)
    (stepped : HashStepped keys table new (mapCall (placed keys table.size) (finiteMap (placed keys table.size) calls) call)
      (cleans keys table.size (finiteMap (placed keys table.size) calls) call))
    (distinct : ((calls ++ [call]).filterMap callContent).Nodup)
    (overwrites : ¬ ∀ key content, call = .append key content →
      (placed keys table.size key).bind (finiteMap (placed keys table.size) calls) = none) :
    Leaked keys (calls ++ [call]) new := by
  obtain ⟨⟨displaced, tended⟩, whole⟩ := accounted
  push Not at overwrites
  obtain ⟨key, content, rfl, present⟩ := overwrites
  obtain ⟨previous, present⟩ := Option.ne_none_iff_exists'.mp present
  obtain ⟨spot, named, stored⟩ := Option.bind_eq_some_iff.mp present
  have apart : previous ≠ content := by
    rintro rfl
    rw [List.filterMap_append] at distinct
    exact (List.nodup_append.mp distinct).2.2 previous (tended.stored spot previous stored) previous
      (by simp [callContent]) rfl
  refine ⟨previous, ?_, ?_, ?_⟩
  · rw [storedContents_snoc]
    exact List.mem_append_left _ ((whole previous).mp (.inl ⟨spot, stored⟩))
  · intro spot' stored'
    rw [stepped.size, finiteMap_snoc] at stored'
    rcases mapCall_holds stored' with now | ⟨differ, before⟩
    · have same : callContent (.append key content : HashCall ι) = some previous := (mem_storedContents_one.mp now).2
      exact apart (Option.some.inj same).symm
    · cases tended.single spot spot' previous stored before
      exact differ named
  · intro cleaned
    have all := stepped.cleaned
    rw [if_pos (show table.cleaner = true from tended.cleaner), cleans, present, Option.isSome_some, if_pos rfl] at all
    have parts : previous ∈ [content] ++ cleanedContents table := all ▸ cleaned
    rcases List.mem_append.mp parts with now | before
    · exact apart (List.mem_singleton.mp now)
    · exact tended.apart spot previous stored before

theorem leaked_step (leaked : Leaked keys calls table)
    (stepped : HashStepped keys table new (mapCall (placed keys table.size) (finiteMap (placed keys table.size) calls) call)
      (cleans keys table.size (finiteMap (placed keys table.size) calls) call))
    (distinct : ((calls ++ [call]).filterMap callContent).Nodup) : Leaked keys (calls ++ [call]) new := by
  obtain ⟨content, stored, unheld, uncleaned⟩ := leaked
  have nowhere : ¬ ((∃ spot, mapCall (placed keys table.size) (finiteMap (placed keys table.size) calls) call spot =
      some content) ∨ content ∈ cleanedContents new) := by
    intro present
    rcases stepped_brings stepped present with now | ⟨spot, held⟩ | cleaned
    · rw [List.filterMap_append] at distinct
      have before := (storedContents_sublist calls).subset stored
      exact (List.nodup_append.mp distinct).2.2 content before content ((storedContents_sublist [call]).subset now) rfl
    · exact unheld spot held
    · exact uncleaned cleaned
  refine ⟨content, ?_, ?_, fun cleaned => nowhere (.inr cleaned)⟩
  · rw [storedContents_snoc]
    exact List.mem_append_left _ stored
  · intro spot held
    rw [stepped.size, finiteMap_snoc] at held
    exact nowhere (.inl ⟨spot, held⟩)

/-- In each run with different contents all of them are accounted for, just until one is overwritten. -/
theorem run_accounts (size : Nat) (sized : 0 < size) (calls : List (HashCall ι))
    (distinct : (calls.filterMap callContent).Nodup) :
    ∃ table, runAll keys.step (HashTable.hashtblInitWithSize size sized).hashtblSetCleaner calls = .ok table ∧
      table.size = size ∧ table.cleaner = true ∧ Tabulates keys table (finiteMap (placed keys size) calls) ∧
      ((NeverOverwrites keys size calls ∧ AllAccounted keys calls table) ∨
        (¬ NeverOverwrites keys size calls ∧ Leaked keys calls table)) := by
  induction calls using List.reverseRecOn with
  | nil =>
    have tended := @tended_init ι κ ν keys size sized
    refine ⟨_, rfl, rfl, rfl, tended.tabulates, .inl ⟨by simp [NeverOverwrites], ⟨[], tended⟩, ?_⟩⟩
    intro content
    simp [finiteMap, cleanedContents, storedContents, HashTable.hashtblInitWithSize, HashTable.hashtblSetCleaner]
  | append_singleton calls call ih =>
    have earlier : (calls.filterMap callContent).Nodup := by
      rw [List.filterMap_append] at distinct
      exact (List.nodup_append.mp distinct).1
    obtain ⟨table, reached, rfl, cleaner, tabulates, accounts⟩ := ih earlier
    obtain ⟨new, ended, stepped⟩ := stepped_call tabulates call
    refine ⟨new, (runAll_snoc reached).trans ended, stepped.size, stepped.cleaner.trans cleaner, ?_, ?_⟩
    · rw [finiteMap_snoc]
      exact stepped.toTabulates
    · rw [neverOverwrites_snoc]
      rcases accounts with ⟨never, accounted⟩ | ⟨overwritten, leaked⟩
      · by_cases last : ∀ key content, call = .append key content →
            (placed keys table.size key).bind (finiteMap (placed keys table.size) calls) = none
        · exact .inl ⟨⟨never, last⟩, accounted_step accounted stepped ended distinct last⟩
        · exact .inr ⟨fun both => last both.2, accounted_leaks accounted stepped distinct last⟩
      · exact .inr ⟨fun both => overwritten both.1, leaked_step leaked stepped distinct⟩

end Accounts

theorem perm_of_accounted {calls : List (HashCall ι)} {items : List (HashItem κ)} (accounted : AllAccounted keys calls table)
    (distinct : (calls.filterMap callContent).Nodup)
    (apart : (items.map fun item => place keys table.size item.key).Nodup)
    (enumerated : ∀ spot content, finiteMap (placed keys table.size) calls spot = some content ↔
      ∃ item ∈ items, place keys table.size item.key = spot ∧ item.content = content) :
    (items.map (·.content) ++ cleanedContents table).Perm (storedContents keys calls) := by
  obtain ⟨⟨displaced, tended⟩, whole⟩ := accounted
  have holds : ∀ item ∈ items, finiteMap (placed keys table.size) calls (place keys table.size item.key) =
      some item.content := fun item member => (enumerated _ _).mpr ⟨item, member, rfl, rfl⟩
  have nodup : (items.map (·.content)).Nodup := by
    apply List.Nodup.map_on ?_ (apart.of_map _)
    intro item member other member' same
    have spots := tended.single _ _ _ (holds item member) (same ▸ holds other member')
    exact List.inj_on_of_nodup_map apart member member' spots
  apply (List.perm_ext_iff_of_nodup _ ((storedContents_sublist calls).nodup distinct)).mpr
  · intro content
    rw [← whole content, List.mem_append, List.mem_map]
    constructor
    · rintro (⟨item, member, rfl⟩ | cleaned)
      · exact .inl ⟨_, holds item member⟩
      · exact .inr cleaned
    · rintro (⟨spot, stored⟩ | cleaned)
      · obtain ⟨item, member, -, same⟩ := (enumerated spot content).mp stored
        exact .inl ⟨item, member, same⟩
      · exact .inr cleaned
  · apply nodup.append tended.nodup
    intro content held cleaned
    obtain ⟨item, member, rfl⟩ := List.mem_map.mp held
    exact tended.apart _ _ (holds item member) cleaned

/-- A table is freed to the last item, and over its life the cleaner gets each content once just where nothing is
    overwritten. -/
theorem life_cleans (size : Nat) (sized : 0 < size) (calls : List (HashCall ι)) :
    ∃ last, hashLife keys.step size sized calls = .ok last ∧ (∀ address, last.node address = none) ∧
      ((calls.filterMap callContent).Nodup →
        ((cleanedContents last).Perm (storedContents keys calls) ↔ NeverOverwrites keys size calls)) := by
  obtain ⟨table, reached, tabulates, rfl⟩ : ∃ table,
      runAll keys.step (HashTable.hashtblInitWithSize size sized).hashtblSetCleaner calls = .ok table ∧
      Tabulates keys table (finiteMap (placed keys size) calls) ∧ table.size = size :=
    run_tabulates (@tended_init ι κ ν keys size sized).tabulates calls
  obtain ⟨order, layout⟩ := tabulates.layout
  obtain ⟨items, -, nodes, apart, enumerated⟩ := enumerate_map layout tabulates.agrees
  obtain ⟨handed, last, ended, perm, empty, cleaned⟩ := hashtblFree_freed layout nodes
  refine ⟨last, by rw [hashLife, reached]; exact ended, empty, ?_⟩
  intro distinct
  obtain ⟨table', reached', -, cleaner, -, accounts⟩ := @run_accounts ι κ ν keys _ table.size sized calls distinct
  cases reached'.symm.trans reached
  have all : (cleanedContents last).Perm (items.map (·.content) ++ cleanedContents table) := by
    rw [cleanedContents, cleaned, if_pos cleaner, List.map_append]
    exact ((List.reverse_perm handed).trans perm).map _ |>.append_right _
  rcases accounts with ⟨never, accounted⟩ | ⟨overwritten, content, stored, unheld, uncleaned⟩
  · exact iff_of_true (all.trans (perm_of_accounted accounted distinct apart enumerated)) never
  · refine iff_of_false ?_ overwritten
    intro once
    have member := (once.symm.trans all).subset stored
    rcases List.mem_append.mp member with held | before
    · obtain ⟨item, inside, rfl⟩ := List.mem_map.mp held
      exact unheld _ ((enumerated _ _).mpr ⟨item, inside, rfl, rfl⟩)
    · exact uncleaned before

end Lives

/-- `hashtbl_free` leaves no item of either kind of table behind and touches none that is freed; where the contents are
    different ones, the cleaner has then got each that was stored once, just if no key was appended again before it was
    erased. -/
theorem hashtbl_life (size : Nat) (sized : 0 < size) (seed : BitVec 32) (integers : List (HashCall (BitVec 64)))
    (strings : List (HashCall (Option CString))) :
    (∃ last, hashLife hashtblStep64 size sized integers = .ok last ∧ (∀ address, last.node address = none) ∧
      ((integers.filterMap callContent).Nodup →
        ((cleanedContents last).Perm (storedContents integerKey integers) ↔ NeverOverwrites integerKey size integers))) ∧
    ∃ last, hashLife (hashtblStep seed) size sized strings = .ok last ∧ (∀ address, last.node address = none) ∧
      ((strings.filterMap callContent).Nodup →
        ((cleanedContents last).Perm (storedContents (stringKey seed) strings) ↔
          NeverOverwrites (stringKey seed) size strings)) := by
  obtain ⟨same, same'⟩ := steps_are_step
  constructor
  · rw [same]
    exact life_cleans size sized integers
  · rw [same' seed]
    exact life_cleans size sized strings

/-- Two keys share a bucket, one is erased, and the other is left to `hashtbl_free`. -/
theorem hashtbl_life_shared :
    ∃ last, hashLife hashtblStep64 2 (by decide) [.append 1#64 (some 10), .append 3#64 (some 30), .erase 1#64] = .ok last ∧
      (∀ address, last.node address = none) ∧ (cleanedContents last).Perm [some 10, some 30] := by
  obtain ⟨⟨last, ended, empty, once⟩, -⟩ := hashtbl_life 2 (by decide) 0
    [.append 1#64 (some 10), .append 3#64 (some 30), .erase 1#64] []
  refine ⟨last, ended, empty, (once (by decide)).mpr ?_⟩
  intro before key content after split
  rcases before with _ | ⟨first, before⟩
  · rfl
  · rcases before with _ | ⟨second, before⟩
    · simp only [List.cons_append, List.nil_append, List.cons.injEq, HashCall.append.injEq] at split
      obtain ⟨rfl, ⟨rfl, rfl⟩, rfl⟩ := split
      decide
    · rcases before with _ | ⟨third, before⟩
      · simp at split
      · simp at split

end ZapeProof
