import Zape.Hash.Layout

/-! Appending and erasing keep the layout of a table, and change the map that it holds at one place. -/
namespace ZapeProof

open Machine ZapeModel

variable {ι κ ν : Type}

/-- What a call does to a map whose keys have these names. An argument without a name is no key. -/
def mapCall [DecidableEq ν] (name : ι → Option ν) (map : ν → Option HashContent) : HashCall ι → ν → Option HashContent
  | .append key content =>
    match name key with
    | none => map
    | some spot => Function.update map spot (some content)
  | .erase key =>
    match name key with
    | none => map
    | some spot => Function.update map spot none

def HoldsMap (keys : HashKey ι κ ν) (table : HashTable κ) (map : Nat × ν → Option HashContent) : Prop :=
  ∀ spot content, map spot = some content ↔
    ∃ address pair, entry table address = some pair ∧ place keys table.size pair.1 = spot ∧ pair.2 = content

section Tables

variable {keys : HashKey ι κ ν} {table new : HashTable κ} {order : List Nat} {address : Nat} {item : HashItem κ}
  {map : Nat × ν → Option HashContent}

theorem clean_fields (table : HashTable κ) (item : HashItem κ) :
    table.clean item = { table with cleaned := if table.cleaner then item :: table.cleaned else table.cleaned } := by
  rw [HashTable.clean]
  split <;> rfl

/-- One item is put in or taken out, and no other has its place. -/
theorem holdsMap_update [DecidableEq ν] {spot : Nat × ν} {value : Option (κ × HashContent)} (agrees : HoldsMap keys table map)
    (changed : entry new = Function.update (entry table) address value) (size : new.size = table.size)
    (own : ∀ pair, value = some pair → place keys table.size pair.1 = spot)
    (alone : ∀ other pair, entry table other = some pair → (place keys table.size pair.1 = spot ↔ other = address)) :
    HoldsMap keys new (Function.update map spot (value.map Prod.snd)) := by
  intro spot' content
  rw [changed, size]
  by_cases same : spot' = spot
  · subst same
    rw [Function.update_self]
    constructor
    · intro stored
      obtain ⟨pair, rfl, here⟩ := Option.map_eq_some_iff.mp stored
      exact ⟨address, pair, Function.update_self _ _ _, own pair rfl, here⟩
    · rintro ⟨other, pair, here, there, rfl⟩
      by_cases differ : other = address
      · subst differ
        rw [Function.update_self] at here
        rw [here]
        rfl
      · rw [Function.update_of_ne differ] at here
        exact absurd ((alone other pair here).mp there) differ
  · rw [Function.update_of_ne same, agrees spot' content]
    constructor
    · rintro ⟨other, pair, here, there, rfl⟩
      have differ : other ≠ address := fun equal => same (there.symm.trans ((alone other pair here).mpr equal))
      exact ⟨other, pair, (Function.update_of_ne differ _ _).trans here, there, rfl⟩
    · rintro ⟨other, pair, here, there, rfl⟩
      by_cases differ : other = address
      · subst differ
        rw [Function.update_self] at here
        exact absurd (there.symm.trans (own pair here)) same
      · rw [Function.update_of_ne differ] at here
        exact ⟨other, pair, here, there, rfl⟩

def overwriteItem (table : HashTable κ) (address : Nat) (item : HashItem κ) : HashTable κ :=
  { table with node := Function.update table.node address (some item) }

theorem layout_overwrite (layout : Layout keys table order) (node : table.node address = some item) (content : HashContent) :
    Layout keys (overwriteItem table address { item with content }) order ∧
      entry (overwriteItem table address { item with content }) =
        Function.update (entry table) address (some (item.key, content)) := by
  let new := overwriteItem table address { item with content }
  have entries : entry new = Function.update (entry table) address (some (item.key, content)) := by
    funext other
    by_cases same : other = address
    · subst same
      simp [entry, new, overwriteItem]
    · simp [entry, new, overwriteItem, same]
  have keysAt : ∀ other pair', entry new other = some pair' → ∃ pair, entry table other = some pair ∧ pair.1 = pair'.1 := by
    intro other pair' here
    rw [entries] at here
    by_cases same : other = address
    · subst same
      rw [Function.update_self] at here
      cases here
      exact ⟨_, entry_some node, rfl⟩
    · rw [Function.update_of_ne same] at here
      exact ⟨pair', here, rfl⟩
  have buckets : ∀ index other, inBucket keys new index other = inBucket keys table index other := by
    intro index other
    by_cases same : other = address
    · subst same
      rw [inBucket, inBucket, entry_some node, entries, Function.update_self]
      rfl
    · have size : new.size = table.size := rfl
      apply inBucket_congr ?_ size
      rw [entries, Function.update_of_ne same]
  have forward : listNext new = listNext table := (bind_update _ _ _).trans (update_link node _ rfl)
  have back : listPrev new = listPrev table := (bind_update _ _ _).trans (update_link node _ rfl)
  have nexts : chained new = chained table := (bind_update _ _ _).trans (update_link node _ rfl)
  refine ⟨{ double := ?_, chains := ?_, nodup := layout.nodup, here := ?_, below := layout.below, distinct := ?_ }, entries⟩
  · show Double (listNext new) (listPrev new) none table.first order
    rw [forward, back]
    exact layout.double
  · intro index
    show Segment (chained new) (table.table index) (order.filter (inBucket keys new index)) none
    rw [nexts, List.filter_congr fun other _ => buckets index other]
    exact layout.chains index
  · intro other
    show other ∈ order ↔ ∃ pair, entry new other = some pair
    rw [layout.here other, entries]
    by_cases same : other = address
    · subst same
      simp [entry_some node]
    · simp [same]
  · intro first second pair pair' here here' same
    obtain ⟨old, found, key⟩ := keysAt first pair here
    obtain ⟨old', found', key'⟩ := keysAt second pair' here'
    rw [← key, ← key'] at same
    exact layout.distinct first second old old' found found' same

end Tables

section Inserting

variable {keys : HashKey ι κ ν} {table middle : HashTable κ} {order : List Nat}

/-- The memory in which the old first item points back at a new one. -/
structure HeadPointsBack (old new : HashTable κ) : Prop extends Relinks old new where
  nexts : chained new = chained old
  heads : new.table = old.table
  lnexts : listNext new = listNext old
  first : ∀ other, old.first = some other → listPrev new other = some old.count
  others : ∀ other, old.first ≠ some other → listPrev new other = listPrev old other

theorem head_points_back (layout : Layout keys table order) :
    ∃ middle, (match table.first with
        | none => .ok table
        | some first => table.write first fun item => { item with lprev := some table.count } :
        Except HashFault (HashTable κ)) = .ok middle ∧ HeadPointsBack table middle := by
  cases first : table.first with
  | none =>
    have stays : Relinks table table := { entries := rfl, size := rfl, count := rfl, cleaner := rfl, cleaned := rfl }
    exact ⟨table, rfl, { toRelinks := stays, nexts := rfl, heads := rfl, lnexts := rfl, first := by rw [first]; nofun,
                         others := fun _ _ => rfl }⟩
  | some head =>
    have member : head ∈ order := List.mem_of_head? ((double_head layout.double).symm.trans first)
    obtain ⟨item, node⟩ := layout.node member
    let change := fun item : HashItem κ => { item with lprev := some table.count }
    have relinks := @relinks_write κ table head item node change rfl rfl
    refine ⟨_, write_item node change, { toRelinks := relinks, nexts := ?_, heads := rfl, lnexts := ?_, first := ?_,
                                         others := ?_ }⟩
    · exact (bind_update _ _ _).trans (update_link node _ rfl)
    · exact (bind_update _ _ _).trans (update_link node _ rfl)
    · intro other points
      cases first.symm.trans points
      simp [listPrev, change]
    · intro other differ
      have apart : other ≠ head := by
        rintro rfl
        exact differ first
      simp [listPrev, apart]

/-- The table once a new item is linked in front of its bucket and of the list. -/
def insertItem (middle : HashTable κ) (index address : Nat) (item : HashItem κ) : HashTable κ :=
  { middle.setBucket index (some address) with
    node := Function.update middle.node address (some item)
    count := middle.count + 1
    first := some address }

theorem layout_insert {key : κ} {content : HashContent} (layout : Layout keys table order)
    (back : HeadPointsBack table middle)
    (nowhere : ∀ address pair, entry table address = some pair → place keys table.size pair.1 ≠ place keys table.size key) :
    Layout keys (insertItem middle (keys.keyHash table key) table.count
      { key, content, next := table.table (keys.keyHash table key), lnext := table.first }) (table.count :: order) ∧
      entry (insertItem middle (keys.keyHash table key) table.count
        { key, content, next := table.table (keys.keyHash table key), lnext := table.first }) =
          Function.update (entry table) table.count (some (key, content)) := by
  let item : HashItem κ := { key, content, next := table.table (keys.keyHash table key), lnext := table.first }
  let new := insertItem middle (keys.keyHash table key) table.count item
  have fresh : table.count ∉ order := fun member => Nat.lt_irrefl _ (layout.below _ member)
  have size : new.size = table.size := back.size
  have entries : entry new = Function.update (entry table) table.count (some (key, content)) := by
    rw [← back.entries]
    funext other
    by_cases same : other = table.count
    · subst same
      simp [entry, new, insertItem, item]
    · simp [entry, new, insertItem, same]
  have nexts : chained new = Function.update (chained table) table.count (table.table (keys.keyHash table key)) := by
    rw [← back.nexts]
    exact bind_update _ _ _
  have lnexts : listNext new = Function.update (listNext table) table.count table.first := by
    rw [← back.lnexts]
    exact bind_update _ _ _
  have lprevs : listPrev new = Function.update (listPrev middle) table.count none := bind_update _ _ _
  have old : ∀ other ∈ order, other ≠ table.count := by
    rintro other member rfl
    exact fresh member
  have buckets : ∀ index, order.filter (inBucket keys new index) = bucket keys table order index := by
    intro index
    apply List.filter_congr
    intro other member
    apply inBucket_congr ?_ size
    rw [entries, Function.update_of_ne (old other member)]
  have own : entry new table.count = some (key, content) := by rw [entries, Function.update_self]
  refine ⟨{ double := ?_, chains := ?_, nodup := List.nodup_cons.mpr ⟨fresh, layout.nodup⟩, here := ?_, below := ?_,
            distinct := ?_ }, entries⟩
  · show Double (listNext new) (listPrev new) none (some table.count) (table.count :: order)
    rw [lnexts]
    apply double_push layout.double layout.nodup fresh
    · intro other points
      have member : other ∈ order := List.mem_of_head? ((double_head layout.double).symm.trans points)
      rw [lprevs, Function.update_of_ne (old other member)]
      exact back.first other points
    · intro other member differ
      rw [lprevs, Function.update_of_ne (old other member)]
      exact back.others other differ
    · rw [lprevs, Function.update_self]
  · intro index
    show Segment (chained new) (new.table index) (List.filter (inBucket keys new index) (table.count :: order)) none
    have outside : table.count ∉ bucket keys table order index := fun member => fresh (List.mem_filter.mp member).1
    have heads : new.table = Function.update table.table (keys.keyHash table key) (some table.count) := by
      rw [← back.heads]
      rfl
    rw [nexts, heads]
    by_cases same : index = keys.keyHash table key
    · subst same
      have inside : inBucket keys new (keys.keyHash table key) table.count = true := by
        rw [inBucket_iff own, size]
        rfl
      rw [List.filter_cons_of_pos inside, buckets, Function.update_self]
      refine ⟨rfl, ?_⟩
      rw [Function.update_self]
      exact (segment_update outside _).mpr (layout.chains _)
    · have elsewhere : ¬ inBucket keys new index table.count = true := by
        rw [inBucket_iff own, size]
        exact fun hashed => same hashed.symm
      rw [List.filter_cons_of_neg elsewhere, buckets, Function.update_of_ne same]
      exact (segment_update outside _).mpr (layout.chains index)
  · intro other
    rw [List.mem_cons, layout.here other, entries]
    by_cases same : other = table.count
    · subst same
      simp
    · simp [same]
  · intro other member
    have count : new.count = table.count + 1 := congrArg (· + 1) back.count
    show other < new.count
    rw [count]
    rcases List.mem_cons.mp member with rfl | later
    · exact Nat.lt_succ_self _
    · exact (layout.below other later).trans (Nat.lt_succ_self _)
  · intro first second pair pair' here here' same
    rw [entries] at here here'
    rw [size] at same
    by_cases one : first = table.count
    · subst one
      rw [Function.update_self] at here
      cases here
      by_cases two : second = table.count
      · exact two.symm
      · rw [Function.update_of_ne two] at here'
        exact absurd same.symm (nowhere second pair' here')
    · rw [Function.update_of_ne one] at here
      by_cases two : second = table.count
      · subst two
        rw [Function.update_self] at here'
        cases here'
        exact absurd same (nowhere first pair here)
      · rw [Function.update_of_ne two] at here'
        exact layout.distinct first second pair pair' here here' same

end Inserting

section Erasing

variable {keys : HashKey ι κ ν} {table new : HashTable κ} {order left right before after : List Nat} {address : Nat}
  {item : HashItem κ}

/-- The chains once an item was taken out of its bucket. -/
structure Unchained (old new : HashTable κ) (index : Nat) (rest : List Nat) : Prop extends Relinks old new where
  lnexts : listNext new = listNext old
  lprevs : listPrev new = listPrev old
  first : new.first = old.first
  chain : Segment (chained new) (new.table index) rest none
  others : ∀ other list, other ≠ index → Segment (chained old) (old.table other) list none →
    (∀ address ∈ list, address ∉ rest) → Segment (chained new) (new.table other) list none

theorem unchain {index : Nat} (chain : Segment (chained table) (table.table index) (before ++ address :: after) none)
    (nodup : (before ++ address :: after).Nodup) (node : table.node address = some item)
    (allocated : ∀ address ∈ before, ∃ item, table.node address = some item) :
    ∃ new, (match before.getLast? with
        | some hPrev => table.write hPrev fun other => { other with next := item.next }
        | none => .ok (table.setBucket index item.next) : Except HashFault (HashTable κ)) = .ok new ∧
      Unchained table new index (before ++ after) := by
  have next : chained table address = item.next := by
    rw [chained, node]
    rfl
  obtain ⟨middle, front, -, back⟩ := segment_append.mp chain
  rw [next] at back
  rcases List.eq_nil_or_concat' before with rfl | ⟨before, hPrev, rfl⟩
  · have relinks : Relinks table (table.setBucket index item.next) :=
      { entries := rfl, size := rfl, count := rfl, cleaner := rfl, cleaned := rfl }
    refine ⟨table.setBucket index item.next, rfl, { toRelinks := relinks, lnexts := rfl, lprevs := rfl, first := rfl,
                                                    chain := ?_, others := ?_ }⟩
    · show Segment (chained table) (Function.update table.table index item.next index) after none
      rw [Function.update_self]
      exact back
    · intro other list differ kept _
      show Segment (chained table) (Function.update table.table index item.next other) list none
      rw [Function.update_of_ne differ]
      exact kept
  · obtain ⟨prev, node'⟩ := allocated hPrev (by simp)
    let change := fun other : HashItem κ => { other with next := item.next }
    have relinks := @relinks_write κ table hPrev prev node' change rfl rfl
    have nexts : (fun other => (Function.update table.node hPrev (some (change prev)) other).bind (·.next)) =
        Function.update (chained table) hPrev item.next := bind_update _ _ _
    have apart := List.nodup_append.mp nodup
    have last : hPrev ∉ before := fun member => (List.nodup_append.mp apart.1).2.2 hPrev member hPrev (by simp) rfl
    have behind : hPrev ∉ after := fun member => apart.2.2 hPrev (by simp) hPrev (List.mem_cons_of_mem _ member) rfl
    refine ⟨_, by rw [List.getLast?_concat]; exact write_item node' change,
      { toRelinks := relinks, lnexts := ?_, lprevs := ?_, first := rfl, chain := ?_, others := ?_ }⟩
    · exact (bind_update _ _ _).trans (update_link node' _ rfl)
    · exact (bind_update _ _ _).trans (update_link node' _ rfl)
    · show Segment (fun other => (Function.update table.node hPrev (some (change prev)) other).bind (·.next))
        (table.table index) (before ++ [hPrev] ++ after) none
      rw [nexts]
      exact segment_append.mpr ⟨item.next, segment_redirect front last item.next, (segment_update behind _).mpr back⟩
    · intro other list differ kept distinct
      show Segment (fun other => (Function.update table.node hPrev (some (change prev)) other).bind (·.next))
        (table.table other) list none
      rw [nexts]
      exact (segment_update (fun member => distinct hPrev member (by simp)) _).mpr kept

/-- The list once an item was taken out of it, too. -/
structure Unlisted (old new : HashTable κ) (rest : List Nat) : Prop extends Relinks old new where
  nexts : chained new = chained old
  heads : new.table = old.table
  double : Double (listNext new) (listPrev new) none new.first rest

theorem unlist (double : Double (listNext table) (listPrev table) none table.first (left ++ address :: right))
    (nodup : (left ++ address :: right).Nodup) (lnext : listNext table address = item.lnext)
    (lprev : listPrev table address = item.lprev)
    (allocated : ∀ address ∈ left ++ right, ∃ item, table.node address = some item) :
    ∃ new, ((match item.lprev with
        | none => .ok { table with first := item.lnext }
        | some lprev => table.write lprev fun other => { other with lnext := item.lnext } :
        Except HashFault (HashTable κ)).bind fun table =>
          match item.lnext with
          | none => .ok table
          | some lnext => table.write lnext fun other => { other with lprev := item.lprev }) = .ok new ∧
      Unlisted table new (left ++ right) := by
  have points := double_prev double
  rw [lprev] at points
  have onward := double_next double
  rw [lnext] at onward
  have shorter := double_unlink double nodup (by nofun)
  rw [lnext] at shorter
  have apart := List.nodup_append.mp nodup
  have front : ∃ middle, (match item.lprev with
      | none => .ok { table with first := item.lnext }
      | some lprev => table.write lprev fun other => { other with lnext := item.lnext } :
      Except HashFault (HashTable κ)) = .ok middle ∧ Relinks table middle ∧ chained middle = chained table ∧
        middle.table = table.table ∧ listPrev middle = listPrev table ∧
        listNext middle = nextWithout (listNext table) (listPrev table) address ∧
        middle.first = if left = [] then item.lnext else table.first := by
    rcases List.eq_nil_or_concat' left with rfl | ⟨left, before, rfl⟩
    · simp only [if_true] at points
      rw [points]
      refine ⟨_, rfl, { entries := rfl, size := rfl, count := rfl, cleaner := rfl, cleaned := rfl }, rfl, rfl, rfl, ?_, rfl⟩
      show listNext table = _
      rw [nextWithout, lprev, points]
    · rw [if_neg (by simp), List.getLast?_concat] at points
      obtain ⟨prev, node⟩ := allocated before (by simp)
      let change := fun other : HashItem κ => { other with lnext := item.lnext }
      have relinks := @relinks_write κ table before prev node change rfl rfl
      rw [points]
      refine ⟨_, write_item node change, relinks, ?_, rfl, ?_, ?_, (if_neg (by simp)).symm⟩
      · exact (bind_update _ _ _).trans (update_link node _ rfl)
      · exact (bind_update _ _ _).trans (update_link node _ rfl)
      · rw [nextWithout, lprev, points]
        show _ = Function.update (listNext table) before (listNext table address)
        rw [lnext]
        exact bind_update _ _ _
  obtain ⟨middle, written, relinks, nexts, heads, lprevs, lnexts, first⟩ := front
  rw [written]
  rw [← lnexts, ← first] at shorter
  cases right with
  | nil =>
    rw [List.head?_nil] at onward
    rw [onward]
    refine ⟨middle, rfl, { toRelinks := relinks, nexts, heads, double := ?_ }⟩
    rw [prevWithout, lnext, onward] at shorter
    rw [lprevs]
    exact shorter
  | cons behind right =>
    rw [List.head?_cons] at onward
    rw [onward]
    obtain ⟨old, found⟩ := allocated behind (by simp)
    have still : ∃ other, middle.node behind = some other := by
      obtain ⟨other, node, -⟩ := node_of_entry ((congrFun relinks.entries behind).trans (entry_some found))
      exact ⟨other, node⟩
    obtain ⟨other, node⟩ := still
    let change := fun other : HashItem κ => { other with lprev := item.lprev }
    refine ⟨_, write_item node change, { toRelinks := relinks.trans (relinks_write node rfl rfl), nexts := ?_, heads,
                                         double := ?_ }⟩
    · exact ((bind_update _ _ _).trans (update_link node _ rfl)).trans nexts
    · have forward : (fun spot => (Function.update middle.node behind (some (change other)) spot).bind (·.lnext)) =
          listNext middle := (bind_update _ _ _).trans (update_link node _ rfl)
      have backward : (fun spot => (Function.update middle.node behind (some (change other)) spot).bind (·.lprev)) =
          prevWithout (listNext table) (listPrev table) address := by
        rw [prevWithout, lnext, onward, lprev, ← lprevs]
        exact bind_update _ _ _
      rw [← backward, ← forward] at shorter
      exact shorter

theorem layout_release {old : HashTable κ} (layout : Layout keys old (left ++ address :: right)) (relinks : Relinks old table)
    (chains : ∀ index, Segment (chained table) (table.table index)
      (bucket keys old left index ++ bucket keys old right index) none)
    (double : Double (listNext table) (listPrev table) none table.first (left ++ right)) :
    Layout keys (table.release address) (left ++ right) ∧
      entry (table.release address) = Function.update (entry old) address none := by
  have entries : entry (table.release address) = Function.update (entry old) address none := by
    rw [← relinks.entries]
    funext other
    by_cases same : other = address
    · subst same
      simp [entry, HashTable.release]
    · simp [entry, HashTable.release, same]
  have size : (table.release address).size = old.size := relinks.size
  have alone := List.nodup_middle.mp layout.nodup
  have outside : address ∉ left ++ right := (List.nodup_cons.mp alone).1
  have other_of_member : ∀ other ∈ left ++ right, other ≠ address := by
    rintro other member rfl
    exact outside member
  have nexts : chained (table.release address) = Function.update (chained table) address none := bind_update _ _ _
  have lnexts : listNext (table.release address) = Function.update (listNext table) address none := bind_update _ _ _
  have lprevs : listPrev (table.release address) = Function.update (listPrev table) address none := bind_update _ _ _
  refine ⟨{ double := ?_, chains := ?_, nodup := (List.nodup_cons.mp alone).2, here := ?_, below := ?_, distinct := ?_ },
    entries⟩
  · rw [lnexts, lprevs]
    apply double_congr ?_ ?_ double
    · exact fun other member => Function.update_of_ne (other_of_member other member) _ _
    · exact fun other member => Function.update_of_ne (other_of_member other member) _ _
  · intro index
    have buckets : bucket keys (table.release address) (left ++ right) index =
        bucket keys old left index ++ bucket keys old right index := by
      rw [bucket, bucket, bucket, ← List.filter_append]
      apply List.filter_congr
      intro other member
      apply inBucket_congr ?_ size
      rw [entries, Function.update_of_ne (other_of_member other member)]
    rw [buckets, nexts]
    apply (segment_update ?_ _).mpr (chains index)
    intro member
    rw [bucket, bucket, ← List.filter_append] at member
    exact outside (List.mem_filter.mp member).1
  · intro other
    rw [entries]
    by_cases same : other = address
    · subst same
      simp [outside]
    · rw [Function.update_of_ne same, ← layout.here other]
      simp [same]
  · intro other member
    show other < table.count
    rw [relinks.count]
    apply layout.below
    rcases List.mem_append.mp member with front | back
    · exact List.mem_append_left _ front
    · exact List.mem_append_right _ (List.mem_cons_of_mem _ back)
  · intro first second pair pair' here here' same
    rw [entries] at here here'
    rw [size] at same
    have one : first ≠ address := by
      rintro rfl
      simp at here
    have two : second ≠ address := by
      rintro rfl
      simp at here'
    rw [Function.update_of_ne one] at here
    rw [Function.update_of_ne two] at here'
    exact layout.distinct first second pair pair' here here' same

end Erasing

section Steps

variable {keys : HashKey ι κ ν} {table : HashTable κ} {map : Nat × ν → Option HashContent}

structure Tabulates (keys : HashKey ι κ ν) (table : HashTable κ) (map : Nat × ν → Option HashContent) : Prop where
  layout : ∃ order, Layout keys table order
  agrees : HoldsMap keys table map

def placed (keys : HashKey ι κ ν) (size : Nat) (key : ι) : Option (Nat × ν) := (keys.given key).map (place keys size)

/-- What a call hands to the cleaner: the content that it stores, if it overwrites one, or the content that it erases. -/
def cleans (keys : HashKey ι κ ν) (size : Nat) (map : Nat × ν → Option HashContent) : HashCall ι → List HashContent
  | .append key content => if ((placed keys size key).bind map).isSome then [content] else []
  | .erase key => ((placed keys size key).bind map).toList

/-- The result of a step, and what the cleaner got in it. -/
structure HashStepped (keys : HashKey ι κ ν) (old new : HashTable κ) (map : Nat × ν → Option HashContent)
    (passed : List HashContent) : Prop extends Tabulates keys new map where
  size : new.size = old.size
  cleaner : new.cleaner = old.cleaner
  cleaned : new.cleaned.map (·.content) = (if old.cleaner then passed else []) ++ old.cleaned.map (·.content)

theorem stepped_refl (tabulates : Tabulates keys table map) : HashStepped keys table table map [] where
  toTabulates := tabulates
  size := rfl
  cleaner := rfl
  cleaned := by simp

theorem holdsMap_find (tabulates : Tabulates keys table map) (key : κ) :
    ∃ found, keys.find table key = .ok found ∧ found.map (·.item.content) = map (place keys table.size key) := by
  obtain ⟨order, layout⟩ := tabulates.layout
  rcases find_ends layout key with ⟨ended, nowhere⟩ | ⟨before, address, item, after, split, node, same, ended⟩
  · refine ⟨none, ended, ?_⟩
    cases stored : map (place keys table.size key) with
    | none => rfl
    | some content =>
      obtain ⟨address, pair, here, there, -⟩ := (tabulates.agrees _ content).mp stored
      exact absurd there (nowhere address pair here)
  · refine ⟨_, ended, ?_⟩
    exact ((tabulates.agrees _ item.content).mpr ⟨address, _, entry_some node, same, rfl⟩).symm

theorem seek_map (tabulates : Tabulates keys table map) (key : ι) :
    keys.seek table key = .ok ((placed keys table.size key).bind map).join := by
  cases given : keys.given key with
  | none => simp only [HashKey.seek, placed, given, Option.map_none, Option.bind_none, Option.join_none]
  | some key =>
    obtain ⟨found, ended, content⟩ := holdsMap_find tabulates key
    simp only [HashKey.seek, placed, given, ended, Option.map_some, Option.bind_some, ← content]
    cases found with
    | none => rfl
    | some found => rfl

theorem stepped_overwrite [DecidableEq ν] {address : Nat} {item : HashItem κ} (tabulates : Tabulates keys table map)
    (node : table.node address = some item) (key : κ) (same : place keys table.size item.key = place keys table.size key)
    (content : HashContent) (hTmp : HashItem κ) (built : hTmp.content = content) :
    HashStepped keys table (overwriteItem (table.clean hTmp) address { item with content })
      (Function.update map (place keys table.size key) (some content)) [content] := by
  obtain ⟨order, layout⟩ := tabulates.layout
  obtain ⟨kept, entries⟩ := layout_overwrite layout node content
  have agrees := @holdsMap_update ι κ ν keys table (overwriteItem table address { item with content }) address map _
    (place keys table.size key) (some (item.key, content)) tabulates.agrees entries rfl
    (by rintro pair ⟨⟩; exact same) (by
      intro other pair here
      constructor
      · intro there
        exact layout.distinct other address pair _ here (entry_some node) (there.trans same.symm)
      · rintro rfl
        cases here.symm.trans (entry_some node)
        exact same)
  rw [clean_fields]
  refine { layout := ⟨order, ?_⟩, agrees, size := rfl, cleaner := rfl, cleaned := ?_ }
  · exact { double := kept.double, chains := kept.chains, nodup := kept.nodup, here := kept.here, below := kept.below,
            distinct := kept.distinct }
  · show List.map _ (if table.cleaner then hTmp :: table.cleaned else table.cleaned) = _
    split
    · rw [List.map_cons, built]
      rfl
    · rfl

theorem bind_map {ε α β γ : Type} {run : Except ε α} {f : α → Except ε β} {g : β → γ} :
    (run.bind fun value => (f value).map g) = (run.bind f).map g := by
  cases run <;> rfl

theorem layout_clean {order : List Nat} (layout : Layout keys table order) (item : HashItem κ) :
    Layout keys (table.clean item) order := by
  rw [clean_fields]
  exact { double := layout.double, chains := layout.chains, nodup := layout.nodup, here := layout.here,
          below := layout.below, distinct := layout.distinct }

theorem bucket_split {left right before after : List Nat} {address index : Nat}
    (member : address ∈ bucket keys table (left ++ address :: right) index)
    (split : bucket keys table (left ++ address :: right) index = before ++ address :: after)
    (alone : address ∉ left ++ right) :
    bucket keys table left index = before ∧ bucket keys table right index = after := by
  have outside : address ∉ bucket keys table left index ∧ address ∉ bucket keys table right index :=
    ⟨fun inside => alone (List.mem_append_left _ (List.mem_filter.mp inside).1),
      fun inside => alone (List.mem_append_right _ (List.mem_filter.mp inside).1)⟩
  rw [bucket, List.filter_append, List.filter_cons_of_pos (List.mem_filter.mp member).2] at split
  have same := (List.append_cons_inj_of_notMem outside.1 outside.2).mp split
  exact ⟨same.1, same.2.2⟩

/-- An item that is taken out of its bucket and of the list, and freed. -/
theorem stepped_remove [DecidableEq ν] {order before after : List Nat} {address : Nat} {item : HashItem κ} {key : κ}
    (agrees : HoldsMap keys table map) (layout : Layout keys table order)
    (split : bucket keys table order (keys.keyHash table key) = before ++ address :: after)
    (node : table.node address = some item) (same : place keys table.size item.key = place keys table.size key) :
    ∃ new, ((match before.getLast? with
        | some hPrev => (table.clean item).write hPrev fun other => { other with next := item.next }
        | none => .ok ((table.clean item).setBucket (keys.keyHash table key) item.next) :
        Except HashFault (HashTable κ)).bind fun table =>
          (match item.lprev with
            | none => .ok { table with first := item.lnext }
            | some lprev => table.write lprev fun other => { other with lnext := item.lnext } :
            Except HashFault (HashTable κ)).bind fun table =>
              (match item.lnext with
                | none => .ok table
                | some lnext => table.write lnext fun other => { other with lprev := item.lprev } :
                Except HashFault (HashTable κ)).map (·.release address)) = .ok new ∧
      HashStepped keys table new (Function.update map (place keys table.size key) none) [item.content] := by
  have member : address ∈ bucket keys table order (keys.keyHash table key) := by
    rw [split]
    simp
  obtain ⟨left, right, rfl⟩ := List.append_of_mem (List.mem_filter.mp member).1
  have alone : address ∉ left ++ right := (List.nodup_cons.mp (List.nodup_middle.mp layout.nodup)).1
  have parts := bucket_split member split alone
  let old := table.clean item
  have cleaned : old = { table with cleaned := if table.cleaner then item :: table.cleaned else table.cleaned } :=
    clean_fields table item
  have layout' : Layout keys old (left ++ address :: right) := layout_clean layout item
  have node' : old.node address = some item := by
    rw [cleaned]
    exact node
  have chain : Segment (chained old) (old.table (keys.keyHash table key)) (before ++ address :: after) none := by
    rw [cleaned, ← split]
    exact layout.chains _
  have nodup : (before ++ address :: after).Nodup := split ▸ layout.nodup.filter _
  have allocated : ∀ other ∈ before, ∃ item, old.node other = some item := by
    intro other inside
    apply layout'.node
    apply List.mem_append_left
    rw [← parts.1] at inside
    exact (List.mem_filter.mp inside).1
  obtain ⟨middle, written, unchained⟩ := unchain chain nodup node' allocated
  have double : Double (listNext middle) (listPrev middle) none middle.first (left ++ address :: right) := by
    rw [unchained.lnexts, unchained.lprevs, unchained.first]
    exact layout'.double
  have lnext : listNext middle address = item.lnext := by
    rw [unchained.lnexts, listNext, node']
    rfl
  have lprev : listPrev middle address = item.lprev := by
    rw [unchained.lprevs, listPrev, node']
    rfl
  have still : ∀ other ∈ left ++ right, ∃ item, middle.node other = some item := by
    intro other inside
    have inside' : other ∈ left ++ address :: right := by
      rcases List.mem_append.mp inside with front | back
      · exact List.mem_append_left _ front
      · exact List.mem_append_right _ (List.mem_cons_of_mem _ back)
    obtain ⟨found, node⟩ := layout'.node inside'
    obtain ⟨found', node', -⟩ := node_of_entry ((congrFun unchained.entries other).trans (entry_some node))
    exact ⟨found', node'⟩
  obtain ⟨last, written', unlisted⟩ := unlist double layout.nodup lnext lprev still
  have relinks : Relinks old last := unchained.toRelinks.trans unlisted.toRelinks
  have chains : ∀ index, Segment (chained last) (last.table index)
      (bucket keys old left index ++ bucket keys old right index) none := by
    intro index
    rw [unlisted.nexts, unlisted.heads]
    by_cases here : index = keys.keyHash table key
    · subst here
      have rest : bucket keys old left (keys.keyHash table key) ++ bucket keys old right (keys.keyHash table key) =
          before ++ after := by
        rw [← parts.1, ← parts.2, cleaned]
        rfl
      rw [rest]
      exact unchained.chain
    · have elsewhere : address ∉ bucket keys old (left ++ address :: right) index := by
        rw [cleaned]
        exact fun inside => here (bucket_apart inside member)
      have whole : bucket keys old (left ++ address :: right) index =
          bucket keys old left index ++ bucket keys old right index := by
        rw [bucket, List.filter_append, List.filter_cons_of_neg]
        · rfl
        · exact fun inside => elsewhere (List.mem_filter.mpr ⟨by simp, inside⟩)
      rw [← whole]
      apply unchained.others index _ here (layout'.chains index)
      intro other inside both
      have hashed : other ∈ bucket keys table (left ++ address :: right) (keys.keyHash table key) := by
        rw [split]
        rcases List.mem_append.mp both with front | back
        · exact List.mem_append_left _ front
        · exact List.mem_append_right _ (List.mem_cons_of_mem _ back)
      rw [cleaned] at inside
      exact here (bucket_apart inside hashed)
  obtain ⟨kept, entries⟩ := layout_release layout' relinks chains unlisted.double
  have entered : entry old = entry table := by
    rw [cleaned]
    rfl
  have size : old.size = table.size := by rw [cleaned]
  have agrees' := @holdsMap_update ι κ ν keys table (last.release address) address map _ (place keys table.size key) none
    agrees (entries.trans (by rw [entered])) (relinks.size.trans size) (by nofun) (by
      intro other pair here
      constructor
      · intro there
        exact layout.distinct other address pair _ here (entry_some node) (there.trans same.symm)
      · rintro rfl
        cases here.symm.trans (entry_some node)
        exact same)
  refine ⟨last.release address, ?_, { layout := ⟨_, kept⟩, agrees := agrees', size := relinks.size.trans size,
                                      cleaner := ?_, cleaned := ?_ }⟩
  · have released := congrArg (Except.map (·.release address)) written'
    rw [← bind_map] at released
    rw [written]
    exact released
  · exact relinks.cleaner.trans (by rw [cleaned])
  · show last.cleaned.map (·.content) = _
    rw [relinks.cleaned, cleaned]
    show List.map _ (if table.cleaner then item :: table.cleaned else table.cleaned) = _
    split
    · rfl
    · rfl

theorem stepped_insert [DecidableEq ν] {middle : HashTable κ} {order : List Nat} (layout : Layout keys table order)
    (agrees : HoldsMap keys table map) (back : HeadPointsBack table middle) (key : κ) (content : HashContent)
    (nowhere : ∀ address pair, entry table address = some pair → place keys table.size pair.1 ≠ place keys table.size key) :
    HashStepped keys table (insertItem middle (keys.keyHash table key) table.count
      { key, content, next := table.table (keys.keyHash table key), lnext := table.first })
      (Function.update map (place keys table.size key) (some content)) [] := by
  obtain ⟨kept, entries⟩ := @layout_insert ι κ ν keys table middle order key content layout back nowhere
  have agrees' := @holdsMap_update ι κ ν keys table _ table.count map _ (place keys table.size key) (some (key, content))
    agrees entries back.size (by rintro pair ⟨⟩; rfl) (by
      intro other pair here
      constructor
      · intro there
        exact absurd there (nowhere other pair here)
      · rintro rfl
        exact absurd (layout.below _ ((layout.here _).mpr ⟨pair, here⟩)) (Nat.lt_irrefl _))
  refine { layout := ⟨_, kept⟩, agrees := agrees', size := back.size, cleaner := back.cleaner, cleaned := ?_ }
  rw [ite_self, List.nil_append]
  exact congrArg (List.map _) back.cleaned

theorem stepped_append [DecidableEq ν] (tabulates : Tabulates keys table map) (key : ι) (content : HashContent) :
    ∃ new, keys.append table key content = .ok new ∧
      HashStepped keys table new (mapCall (placed keys table.size) map (.append key content))
        (cleans keys table.size map (.append key content)) := by
  cases given : keys.given key with
  | none =>
    simp only [HashKey.append, mapCall, cleans, placed, given, Option.map_none, Option.bind_none]
    exact ⟨table, rfl, stepped_refl tabulates⟩
  | some key =>
    obtain ⟨order, layout⟩ := tabulates.layout
    obtain ⟨found, ended, stored⟩ := holdsMap_find tabulates key
    simp only [HashKey.append, mapCall, cleans, placed, given, ended, Option.map_some, Option.bind_some, ← stored, Except.bind]
    rcases find_ends layout key with ⟨search, nowhere⟩ | ⟨before, address, item, after, -, node, same, search⟩
    · cases ended.symm.trans search
      obtain ⟨middle, written, back⟩ := head_points_back layout
      have inserted := congrArg (Except.map fun middle => insertItem middle (keys.keyHash table key) table.count
        { key, content, next := table.table (keys.keyHash table key), lnext := table.first }) written
      exact ⟨_, inserted, stepped_insert layout tabulates.agrees back key content nowhere⟩
    · cases ended.symm.trans search
      let hTmp : HashItem κ := { key, content, next := table.table (keys.keyHash table key), lnext := table.first }
      let change := fun item : HashItem κ => { item with content }
      have node' : (table.clean hTmp).node address = some item := by
        rw [clean_fields]
        exact node
      exact ⟨_, write_item node' change, stepped_overwrite tabulates node key same content hTmp rfl⟩

theorem stepped_erase [DecidableEq ν] (tabulates : Tabulates keys table map) (key : ι) :
    ∃ new, keys.erase table key = .ok new ∧
      HashStepped keys table new (mapCall (placed keys table.size) map (.erase key))
        (cleans keys table.size map (.erase key)) := by
  cases given : keys.given key with
  | none =>
    simp only [HashKey.erase, mapCall, cleans, placed, given, Option.map_none, Option.bind_none]
    exact ⟨table, rfl, stepped_refl tabulates⟩
  | some key =>
    obtain ⟨order, layout⟩ := tabulates.layout
    obtain ⟨found, ended, stored⟩ := holdsMap_find tabulates key
    simp only [HashKey.erase, mapCall, cleans, placed, given, ended, Option.map_some, Option.bind_some, ← stored, Except.bind]
    rcases find_ends layout key with ⟨search, nowhere⟩ | ⟨before, address, item, after, split, node, same, search⟩
    · cases ended.symm.trans search
      have absent : map (place keys table.size key) = none := stored.symm
      refine ⟨table, rfl, ?_⟩
      have unchanged : Function.update map (place keys table.size key) none = map :=
        Function.update_eq_self_iff.mpr absent.symm
      rw [unchanged]
      exact stepped_refl tabulates
    · cases ended.symm.trans search
      obtain ⟨new, erased, stepped⟩ := stepped_remove tabulates.agrees layout split node same
      exact ⟨new, erased, stepped⟩

theorem stepped_call [DecidableEq ν] (tabulates : Tabulates keys table map) (call : HashCall ι) :
    ∃ new, keys.step table call = .ok new ∧
      HashStepped keys table new (mapCall (placed keys table.size) map call) (cleans keys table.size map call) := by
  cases call with
  | append key content => exact stepped_append tabulates key content
  | erase key => exact stepped_erase tabulates key

theorem tabulates_init (size : Nat) (sized : 0 < size) :
    Tabulates keys (HashTable.hashtblInitWithSize size sized) fun _ => none where
  layout :=
    ⟨[], { double := rfl, chains := fun _ => rfl, nodup := List.nodup_nil, below := by simp,
           here := by simp [entry, HashTable.hashtblInitWithSize],
           distinct := by simp [entry, HashTable.hashtblInitWithSize] }⟩
  agrees := by simp [HoldsMap, entry, HashTable.hashtblInitWithSize]

end Steps

end ZapeProof
