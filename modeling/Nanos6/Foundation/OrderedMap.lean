import Mathlib.Order.Lattice
import Mathlib.Data.List.Basic

/-!
# Ordered maps

A map kept as a list of entries in the strict order of their keys, with the
traversal that an iterator makes over it: the first key, and the key after a
given one.  Everything is stated by lookups.
-/

namespace Foundation

universe u v

structure OrderedMap (Key : Type u) (Value : Type v) [LinearOrder Key] where
  entries : List (Key × Value)
  ordered : entries.Pairwise fun first second => first.1 < second.1

namespace OrderedMap

variable {Key : Type u} {Value : Type v} [LinearOrder Key]

def empty : OrderedMap Key Value where
  entries := []
  ordered := List.Pairwise.nil

def lookupIn (key : Key) : List (Key × Value) → Option Value
  | [] => none
  | entry :: rest =>
      if key = entry.1 then some entry.2 else lookupIn key rest

def lookup (map : OrderedMap Key Value) (key : Key) : Option Value :=
  lookupIn key map.entries

@[simp]
theorem lookup_empty (key : Key) :
    (empty : OrderedMap Key Value).lookup key = none :=
  rfl

theorem lookupIn_eq_none {key : Key} {entries : List (Key × Value)}
    (absent : ∀ entry ∈ entries, key ≠ entry.1) :
    lookupIn key entries = none := by
  induction entries with
  | nil => rfl
  | cons entry rest inductionHypothesis =>
      rw [lookupIn, if_neg (absent entry List.mem_cons_self)]
      exact inductionHypothesis fun later member =>
        absent later (List.mem_cons_of_mem _ member)

/-! ## Insertion -/

/-- An entry that is there already is kept. -/
def insertIn (key : Key) (value : Value) :
    List (Key × Value) → List (Key × Value)
  | [] => [(key, value)]
  | entry :: rest =>
      if key < entry.1 then (key, value) :: entry :: rest
      else if key = entry.1 then entry :: rest
      else entry :: insertIn key value rest

theorem mem_insertIn {key : Key} {value : Value} {entry : Key × Value}
    {entries : List (Key × Value)}
    (member : entry ∈ insertIn key value entries) :
    entry = (key, value) ∨ entry ∈ entries := by
  induction entries with
  | nil =>
      left
      simpa [insertIn] using member
  | cons first rest inductionHypothesis =>
      unfold insertIn at member
      split at member
      · rcases List.mem_cons.mp member with rfl | there
        · exact Or.inl rfl
        · exact Or.inr there
      · split at member
        · exact Or.inr member
        · rcases List.mem_cons.mp member with rfl | there
          · exact Or.inr (List.mem_cons_self ..)
          · rcases inductionHypothesis there with new | old
            · exact Or.inl new
            · exact Or.inr (List.mem_cons_of_mem _ old)

theorem ordered_insertIn (key : Key) (value : Value)
    {entries : List (Key × Value)}
    (ordered : entries.Pairwise fun first second => first.1 < second.1) :
    (insertIn key value entries).Pairwise
      fun first second => first.1 < second.1 := by
  induction entries with
  | nil => exact List.pairwise_singleton _ _
  | cons first rest inductionHypothesis =>
      obtain ⟨above, orderedRest⟩ := List.pairwise_cons.mp ordered
      unfold insertIn
      split
      · rename_i before
        refine List.pairwise_cons.mpr ⟨?_, ordered⟩
        intro entry member
        rcases List.mem_cons.mp member with rfl | inRest
        · exact before
        · exact lt_trans before (above entry inRest)
      · rename_i notBefore
        split
        · exact ordered
        · rename_i differ
          refine List.pairwise_cons.mpr
            ⟨?_, inductionHypothesis orderedRest⟩
          intro entry member
          rcases mem_insertIn member with rfl | inRest
          · exact lt_of_le_of_ne (not_lt.mp notBefore) (Ne.symm differ)
          · exact above entry inRest

theorem lookupIn_insertIn (key : Key) (value : Value) (other : Key)
    {entries : List (Key × Value)}
    (ordered : entries.Pairwise fun first second => first.1 < second.1) :
    lookupIn other (insertIn key value entries) =
      if other = key then some ((lookupIn key entries).getD value)
      else lookupIn other entries := by
  induction entries with
  | nil =>
      by_cases same : other = key <;> simp [insertIn, lookupIn, same]
  | cons first rest inductionHypothesis =>
      obtain ⟨above, orderedRest⟩ := List.pairwise_cons.mp ordered
      unfold insertIn
      split
      · rename_i before
        -- The key lies before all the entries, so none of them has it.
        have absent : lookupIn key (first :: rest) = none := by
          apply lookupIn_eq_none
          intro entry member
          rcases List.mem_cons.mp member with rfl | inRest
          · exact ne_of_lt before
          · exact ne_of_lt (lt_trans before (above entry inRest))
        rw [absent, lookupIn]
        rfl
      · split
        · rename_i same
          by_cases equal : other = key
          · subst equal
            simp [lookupIn, same]
          · simp [equal]
        · rename_i differ
          rw [lookupIn, inductionHypothesis orderedRest, lookupIn, lookupIn,
            if_neg differ]
          by_cases equal : other = key
          · subst equal
            simp [differ]
          · simp [equal]

def insert (map : OrderedMap Key Value) (key : Key) (value : Value) :
    OrderedMap Key Value where
  entries := insertIn key value map.entries
  ordered := ordered_insertIn key value map.ordered

theorem lookup_insert (map : OrderedMap Key Value) (key : Key)
    (value : Value) (other : Key) :
    (map.insert key value).lookup other =
      if other = key then some ((map.lookup key).getD value)
      else map.lookup other :=
  lookupIn_insertIn key value other map.ordered

/-! ## Change and removal -/

/-- Change the value of one key, if it is there. -/
def modify (map : OrderedMap Key Value) (key : Key)
    (change : Value → Value) : OrderedMap Key Value where
  entries := map.entries.map fun entry =>
    (entry.1, if entry.1 = key then change entry.2 else entry.2)
  ordered := by
    rw [List.pairwise_map]
    exact map.ordered

theorem lookup_modify (map : OrderedMap Key Value) (key : Key)
    (change : Value → Value) (other : Key) :
    (map.modify key change).lookup other =
      if other = key then (map.lookup key).map change
      else map.lookup other := by
  change lookupIn other (map.entries.map _) =
    if other = key then (lookupIn key map.entries).map change
    else lookupIn other map.entries
  induction map.entries with
  | nil => simp [lookupIn]
  | cons entry rest inductionHypothesis =>
      rw [List.map_cons, lookupIn, inductionHypothesis, lookupIn, lookupIn]
      by_cases here : other = entry.1
      · subst here
        by_cases same : entry.1 = key
        · simp [same]
        · simp [same]
      · by_cases same : other = key
        · subst same
          simp [here]
        · simp [here, same]

def erase (map : OrderedMap Key Value) (key : Key) :
    OrderedMap Key Value where
  entries := map.entries.filter fun entry => decide (entry.1 ≠ key)
  ordered := map.ordered.filter _

theorem lookup_erase (map : OrderedMap Key Value) (key other : Key) :
    (map.erase key).lookup other =
      if other = key then none else map.lookup other := by
  change lookupIn other (map.entries.filter _) =
    if other = key then none else lookupIn other map.entries
  induction map.entries with
  | nil => simp [lookupIn]
  | cons entry rest inductionHypothesis =>
      by_cases removed : entry.1 = key
      · rw [List.filter_cons_of_neg (by simp [removed]),
          inductionHypothesis, lookupIn]
        by_cases same : other = key
        · simp [same]
        · simp [same, removed]
      · rw [List.filter_cons_of_pos (by simp [removed]), lookupIn,
          inductionHypothesis, lookupIn]
        by_cases same : other = key
        · subst same
          simp [Ne.symm removed]
        · simp [same]

/-! ## Traversal -/

/-- The key of the first entry, or nothing at the end. -/
def first (map : OrderedMap Key Value) : Option Key :=
  map.entries.head?.map Prod.fst

/-- The key of the first entry after a given key. -/
def next (map : OrderedMap Key Value) (key : Key) : Option Key :=
  (map.entries.find? fun entry => decide (key < entry.1)).map Prod.fst

theorem lookupIn_of_mem {entry : Key × Value} {entries : List (Key × Value)}
    (member : entry ∈ entries) : (lookupIn entry.1 entries).isSome = true := by
  induction entries with
  | nil => cases member
  | cons head rest inductionHypothesis =>
      rw [lookupIn]
      split
      · rfl
      · rename_i differ
        rcases List.mem_cons.mp member with rfl | inRest
        · exact absurd rfl differ
        · exact inductionHypothesis inRest

theorem lookup_first (map : OrderedMap Key Value) {key : Key}
    (found : map.first = some key) : (map.lookup key).isSome = true := by
  obtain ⟨entry, head, rfl⟩ := Option.map_eq_some_iff.mp found
  exact lookupIn_of_mem (List.mem_of_head? head)

theorem lookup_next (map : OrderedMap Key Value) {key later : Key}
    (found : map.next key = some later) :
    (map.lookup later).isSome = true := by
  obtain ⟨entry, after, rfl⟩ := Option.map_eq_some_iff.mp found
  exact lookupIn_of_mem (List.mem_of_find?_eq_some after)

theorem next_ne (map : OrderedMap Key Value) {key later : Key}
    (found : map.next key = some later) : later ≠ key := by
  obtain ⟨entry, after, rfl⟩ := Option.map_eq_some_iff.mp found
  have above := List.find?_some after
  exact ne_of_gt (of_decide_eq_true above)

theorem mem_of_lookup {map : OrderedMap Key Value} {key : Key}
    {value : Value} (found : map.lookup key = some value) :
    (key, value) ∈ map.entries := by
  revert found
  unfold lookup
  induction map.entries with
  | nil =>
      intro found
      cases found
  | cons entry rest inductionHypothesis =>
      intro found
      rw [lookupIn] at found
      split at found
      · rename_i same
        subst same
        cases found
        exact List.mem_cons_self
      · exact List.mem_cons_of_mem _ (inductionHypothesis found)

theorem mem_keys_of_lookup {map : OrderedMap Key Value} {key : Key}
    (there : (map.lookup key).isSome = true) :
    ∃ entry ∈ map.entries, entry.1 = key := by
  obtain ⟨value, found⟩ := Option.isSome_iff_exists.mp there
  exact ⟨(key, value), mem_of_lookup found, rfl⟩

/-- The traversal starts at or before every key. -/
theorem first_le (map : OrderedMap Key Value) {key : Key}
    (there : (map.lookup key).isSome = true) :
    ∃ start, map.first = some start ∧ start ≤ key := by
  obtain ⟨entry, member, rfl⟩ := mem_keys_of_lookup there
  have ordered := map.ordered
  unfold first
  cases equal : map.entries with
  | nil =>
      rw [equal] at member
      cases member
  | cons head rest =>
      rw [equal] at member ordered
      refine ⟨head.1, rfl, ?_⟩
      rcases List.mem_cons.mp member with rfl | inRest
      · exact le_rfl
      · exact le_of_lt ((List.pairwise_cons.mp ordered).1 entry inRest)

theorem next_le_of_ordered {key later : Key}
    {entries : List (Key × Value)}
    (ordered : entries.Pairwise fun first second => first.1 < second.1)
    (member : ∃ entry ∈ entries, entry.1 = later) (above : key < later) :
    ∃ entry, entries.find? (fun entry => decide (key < entry.1)) =
      some entry ∧ entry.1 ≤ later := by
  induction entries with
  | nil =>
      obtain ⟨entry, impossible, -⟩ := member
      cases impossible
  | cons head rest inductionHypothesis =>
      obtain ⟨before, orderedRest⟩ := List.pairwise_cons.mp ordered
      obtain ⟨entry, inEntries, rfl⟩ := member
      by_cases passes : key < head.1
      · refine ⟨head, List.find?_cons_of_pos (by simpa using passes), ?_⟩
        rcases List.mem_cons.mp inEntries with rfl | inRest
        · exact le_rfl
        · exact le_of_lt (before entry inRest)
      · rw [List.find?_cons_of_neg (by simpa using passes)]
        apply inductionHypothesis orderedRest
        rcases List.mem_cons.mp inEntries with rfl | inRest
        · exact absurd above passes
        · exact ⟨entry, inRest, rfl⟩

/-- The traversal does not step over a key. -/
theorem next_le (map : OrderedMap Key Value) {key later : Key}
    (there : (map.lookup later).isSome = true) (above : key < later) :
    ∃ following, map.next key = some following ∧ following ≤ later := by
  obtain ⟨entry, found, below⟩ := next_le_of_ordered map.ordered
    (mem_keys_of_lookup there) above
  exact ⟨entry.1, by rw [next, found]; rfl, below⟩

theorem lt_next (map : OrderedMap Key Value) {key later : Key}
    (found : map.next key = some later) : key < later := by
  obtain ⟨entry, after, rfl⟩ := Option.map_eq_some_iff.mp found
  have above := List.find?_some after
  exact of_decide_eq_true above

def size (map : OrderedMap Key Value) : Nat :=
  map.entries.length

theorem size_modify (map : OrderedMap Key Value) (key : Key)
    (change : Value → Value) : (map.modify key change).size = map.size :=
  List.length_map ..

theorem size_erase_le (map : OrderedMap Key Value) (key : Key) :
    (map.erase key).size ≤ map.size :=
  List.length_filter_le ..

theorem size_erase_lt (map : OrderedMap Key Value) {key : Key}
    (there : (map.lookup key).isSome = true) :
    (map.erase key).size < map.size := by
  obtain ⟨entry, member, rfl⟩ := mem_keys_of_lookup there
  exact List.length_filter_lt_length_iff_exists.mpr
    ⟨entry, member, by simp⟩

/-- The number of entries that a traversal has before it. -/
def remaining (map : OrderedMap Key Value) : Option Key → Nat
  | none => 0
  | some key => map.entries.countP fun entry => decide (key ≤ entry.1)

theorem remaining_modify (map : OrderedMap Key Value) (key : Key)
    (change : Value → Value) (position : Option Key) :
    (map.modify key change).remaining position = map.remaining position := by
  cases position with
  | none => rfl
  | some start => exact List.countP_map ..

theorem remaining_erase (map : OrderedMap Key Value) (key : Key)
    (position : Option Key) :
    (map.erase key).remaining position ≤ map.remaining position := by
  cases position with
  | none => exact Nat.le_refl _
  | some start => exact List.filter_sublist.countP_le

/-- The traversal comes closer to the end with every entry. -/
theorem remaining_next (map : OrderedMap Key Value) {key : Key}
    (there : (map.lookup key).isSome = true) :
    map.remaining (map.next key) < map.remaining (some key) := by
  obtain ⟨entry, member, rfl⟩ := mem_keys_of_lookup there
  cases following : map.next entry.1 with
  | none =>
      apply List.countP_pos_iff.mpr
      exact ⟨entry, member, by simp⟩
  | some later =>
      have above := map.lt_next following
      -- The entry itself is counted only from its own key on.
      unfold remaining
      simp only [List.countP_eq_length_filter]
      have within : List.Sublist
          (map.entries.filter fun other => decide (later ≤ other.1))
          (map.entries.filter fun other => decide (entry.1 ≤ other.1)) := by
        apply List.monotone_filter_right
        intro other counted
        have beyond := of_decide_eq_true counted
        exact decide_eq_true (le_trans (le_of_lt above) beyond)
      apply Nat.lt_of_le_of_ne within.length_le
      · intro same
        have equal := within.eq_of_length same
        have inside : entry ∈ map.entries.filter fun other =>
            decide (entry.1 ≤ other.1) :=
          List.mem_filter.mpr ⟨member, by simp⟩
        rw [← equal] at inside
        have beyond := of_decide_eq_true (List.mem_filter.mp inside).2
        exact absurd beyond (not_le.mpr above)

end OrderedMap

end Foundation
