import KernelLint.Proofs.Syntax.Parts
import Mathlib.Data.List.Induction
import Mathlib.Order.Defs.LinearOrder

/-!
# Places

A place in a node is the way down to it: at each step the position of the part that is taken. Two
nodes that are equal still stand at different places, so places say how often something occurs. In
the lexicographic order a node comes before what stands in it and the parts of a node come in their
order, which is the pre-order of the tree. The walk of a node lists what stands at its places in
this order, each place once (`Visit.inPreOrder_walk`), and whatever is picked out of the walk is
listed in the same way (`InPreOrder.filterMap`).
-/

namespace KernelLint

/-! ## Lists in pre-order -/

section

variable {α β : Type} {lookup : List Nat → Option α} {places : List (List Nat)} {found : List α}

/-- The list has what stands at the places, in their order, with one entry for each place. -/
structure ListsAt (lookup : List Nat → Option α) (places : List (List Nat)) (found : List α) :
    Prop where
  sorted : places.Pairwise (· < ·)
  mem_iff : ∀ place, place ∈ places ↔ (lookup place).isSome = true
  read : found.map some = places.map lookup

/-- The list has what stands at all places where something stands, each once and in the order of the
places. -/
def InPreOrder (lookup : List Nat → Option α) (found : List α) :
    Prop := ∃ places, ListsAt lookup places found

namespace ListsAt

theorem getElem?_eq (h : ListsAt lookup places found) {i : Nat} {place : List Nat}
    (hi : places[i]? = some place) :
    found[i]? = lookup place := by
  have hread : (found.map some)[i]? = (places.map lookup)[i]? :=
    congrArg (fun l : List (Option α) => l[i]?) h.read
  rw [List.getElem?_map, List.getElem?_map, hi, Option.map_some] at hread
  obtain ⟨x, hx, hlookup⟩ := Option.map_eq_some_iff.mp hread
  rw [hx, hlookup]

theorem exists_index (h : ListsAt lookup places found) {place : List Nat} {x : α}
    (hx : lookup place = some x) :
    ∃ i : Nat, places[i]? = some place ∧ found[i]? = some x := by
  have hmem : place ∈ places := (h.mem_iff place).mpr (by rw [hx, Option.isSome_some])
  obtain ⟨i, hi⟩ := List.getElem?_of_mem hmem
  exact ⟨i, hi, (h.getElem?_eq hi).trans hx⟩

theorem mem_found (h : ListsAt lookup places found) {x : α} :
    x ∈ found ↔ ∃ place, lookup place = some x := by
  constructor
  · intro hx
    have hsome : some x ∈ places.map lookup := h.read ▸ List.mem_map_of_mem hx
    obtain ⟨place, -, hplace⟩ := List.mem_map.mp hsome
    exact ⟨place, hplace⟩
  · rintro ⟨place, hplace⟩
    obtain ⟨i, -, hi⟩ := h.exists_index hplace
    exact List.mem_of_getElem? hi

theorem index_lt (h : ListsAt lookup places found) {i j : Nat} {place place' : List Nat}
    (hi : places[i]? = some place) (hj : places[j]? = some place') (hlt : place < place') :
    i < j := by
  obtain ⟨hi', rfl⟩ := List.getElem?_eq_some_iff.mp hi
  obtain ⟨hj', rfl⟩ := List.getElem?_eq_some_iff.mp hj
  rcases Nat.lt_trichotomy i j with hbefore | rfl | hafter
  · exact hbefore
  · exact absurd hlt (List.lt_irrefl _)
  · exact absurd (List.lt_trans hlt (List.pairwise_iff_getElem.mp h.sorted j i hj' hi' hafter))
      (List.lt_irrefl _)

theorem index_lt_inside (h : ListsAt lookup places found) {i j k : Nat} {outer inner : List Nat}
    (hi : places[i]? = some outer) (hj : places[j]? = some (outer ++ k :: inner)) : i < j := by
  refine h.index_lt hi hj ?_
  have hnil : outer ++ [] < outer ++ k :: inner := List.append_left_lt (List.nil_lt_cons k inner)
  rwa [List.append_nil] at hnil

end ListsAt

theorem InPreOrder.filterMap (h : InPreOrder lookup found) (pick : α → Option β) :
    InPreOrder (fun place => (lookup place).bind pick) (found.filterMap pick) := by
  obtain ⟨places, h⟩ := h
  refine ⟨places.filter fun place => ((lookup place).bind pick).isSome, h.sorted.filter _,
    fun place => ?_, ?_⟩
  · rw [List.mem_filter, h.mem_iff, and_iff_right_iff_imp]
    intro hsome
    obtain ⟨y, hy⟩ := Option.isSome_iff_exists.mp hsome
    obtain ⟨x, hx, -⟩ := Option.bind_eq_some_iff.mp hy
    rw [hx, Option.isSome_some]
  · have hpicked : found.filterMap pick = places.filterMap fun place => (lookup place).bind pick :=
      calc found.filterMap pick =
        (found.map some).filterMap (·.bind pick) := by rw [List.filterMap_map]; rfl
        _ = places.filterMap fun place => (lookup place).bind
          pick := by rw [h.read, List.filterMap_map]; rfl
    rw [hpicked, List.map_filterMap_some_eq_filter_map_isSome, List.filter_map]
    rfl

end

/-! ## Nodes at places -/

namespace Visit

/-- The node at a place. -/
def at? : Visit → List Nat → Option Visit
  | v, [] => some v
  | v, i :: place => v.parts[i]?.bind fun part => part.at? place

/-- The node at a place whose first step takes one of the nodes. -/
def among? (ws : List Visit) : List Nat → Option Visit
  | [] => none
  | i :: place => ws[i]?.bind fun w => w.at? place

variable {ws : List Visit} {w : Visit} {i : Nat} {place : List Nat}

theorem lt_of_among? (h : (among? ws (i :: place)).isSome = true) : i < ws.length := by
  obtain ⟨u, hu⟩ := Option.isSome_iff_exists.mp h
  obtain ⟨part, hpart, -⟩ := Option.bind_eq_some_iff.mp hu
  exact (List.getElem?_eq_some_iff.mp hpart).1

theorem among?_append_of_lt (h : i < ws.length) :
    among? (ws ++ [w]) (i :: place) = among? ws (i :: place) := by
  rw [among?, among?, List.getElem?_append_left h]

theorem among?_append_length : among? (ws ++ [w]) (ws.length :: place) = w.at? place := by
  rw [among?, List.getElem?_concat_length, Option.bind_some]

theorem inPreOrder_among (h : ∀ w ∈ ws, InPreOrder w.at? w.walk) :
    InPreOrder (among? ws) (ws.flatMap walk) := by
  -- Taken from the end, a further node leaves the positions of the others as they are.
  induction ws using List.reverseRecOn with
  | nil =>
    refine ⟨[], .nil, fun place => ?_, rfl⟩
    cases place <;> simp [among?]
  | append_singleton ws w ih =>
    obtain ⟨places, hplaces⟩ := ih fun u hu => h u (List.mem_append_left _ hu)
    obtain ⟨own, hown⟩ := h w (List.mem_append_right _ List.mem_cons_self)
    have hfirst : ∀ place ∈ places, ∃ i rest, place = i :: rest ∧ i < ws.length := by
      intro place hplace
      have hsome := (hplaces.mem_iff place).mp hplace
      cases place with
      | nil => cases hsome
      | cons i rest => exact ⟨i, rest, rfl, lt_of_among? hsome⟩
    refine ⟨places ++ own.map (ws.length :: ·), ?_, fun place => ?_, ?_⟩
    · refine List.pairwise_append.mpr ⟨hplaces.sorted, ?_, ?_⟩
      · rw [List.pairwise_map]
        exact hown.sorted.imp List.cons_lt_cons_self.mpr
      · intro place hplace place' hplace'
        obtain ⟨i, rest, rfl, hi⟩ := hfirst place hplace
        obtain ⟨rest', -, rfl⟩ := List.mem_map.mp hplace'
        exact List.cons_lt_cons_iff.mpr (.inl hi)
    · rw [List.mem_append]
      constructor
      · rintro (hplace | hplace)
        · obtain ⟨i, rest, rfl, hi⟩ := hfirst place hplace
          rw [among?_append_of_lt hi]
          exact (hplaces.mem_iff _).mp hplace
        · obtain ⟨rest, hrest, rfl⟩ := List.mem_map.mp hplace
          rw [among?_append_length]
          exact (hown.mem_iff rest).mp hrest
      · intro hsome
        cases place with
        | nil => cases hsome
        | cons i rest =>
          have hi := lt_of_among? hsome
          rw [List.length_append, List.length_singleton] at hi
          rcases Nat.lt_or_eq_of_le (Nat.le_of_lt_succ hi) with hi | rfl
          · rw [among?_append_of_lt hi] at hsome
            exact .inl ((hplaces.mem_iff _).mpr hsome)
          · rw [among?_append_length] at hsome
            exact .inr (List.mem_map_of_mem ((hown.mem_iff rest).mpr hsome))
    · rw [List.flatMap_append, List.flatMap_singleton, List.map_append, List.map_append,
        hplaces.read, hown.read, List.map_map]
      congr 1
      · refine List.map_congr_left fun place hplace => ?_
        obtain ⟨i, rest, rfl, hi⟩ := hfirst place hplace
        exact (among?_append_of_lt hi).symm
      · exact List.map_congr_left fun place _ => among?_append_length.symm

/-- **The walk of a node is the pre-order of its places**: it lists what stands in the node, once
for each place. -/
theorem inPreOrder_walk (v : Visit) : InPreOrder v.at? v.walk := by
  induction v using parts_induction with
  | step v ih =>
    obtain ⟨places, h⟩ := inPreOrder_among ih
    rw [walk_eq]
    refine ⟨[] :: places, List.pairwise_cons.mpr ⟨fun place hplace => ?_, h.sorted⟩,
      fun place => ?_, ?_⟩
    · have hsome := (h.mem_iff place).mp hplace
      cases place with
      | nil => cases hsome
      | cons i rest => exact List.nil_lt_cons i rest
    · cases place with
      | nil => simp [at?]
      | cons i rest => simpa [at?, among?] using h.mem_iff (i :: rest)
    · rw [List.map_cons, List.map_cons, h.read]
      congr 1
      refine List.map_congr_left fun place hplace => ?_
      have hsome := (h.mem_iff place).mp hplace
      cases place with
      | nil => cases hsome
      | cons i rest => rfl

end Visit

end KernelLint
