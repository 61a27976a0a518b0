import Mathlib.Algebra.Order.Ring.Int
import Mathlib.Data.List.Basic
import Mathlib.Tactic.Common

/-!
# The lists of CPUs

`maskToRegionList` writes the CPUs of a mask as a list of regions of system ids.
It goes through the CPUs by their virtual ids, and a region goes on as long as the
virtual ids do, so a region also holds the system ids between those of two
neighbours.
-/

namespace Nanos6.CPUManager

/-! ## Writing -/

/-- The conversion of a `size_t` to an `int`. -/
def toInt (value : Nat) : Int :=
  (value : Int).bmod (2 ^ 32)

/-- A number as an `ostringstream` writes it. -/
def decimal (value : Int) : List Char :=
  if value < 0 then '-' :: Nat.toDigits 10 value.natAbs
  else Nat.toDigits 10 value.toNat

/-- The variables of `maskToRegionList`. -/
structure Listing where
  start : Int := 0
  stop : Int := -1
  first : Bool := true
  oss : List Char := []

def regionText (start stop : Int) : List Char :=
  if stop = start then decimal start
  else decimal start ++ '-' :: decimal stop

namespace Listing

/-- A CPU in the mask extends the region or starts one. -/
def extend (listing : Listing) (systemCPUId : Nat) : Listing :=
  if listing.stop ≥ listing.start then
    { listing with stop := toInt systemCPUId }
  else
    { listing with start := toInt systemCPUId, stop := toInt systemCPUId }

/-- The region is emitted and invalidated, if there is one. -/
def emit (listing : Listing) : Listing :=
  if listing.stop ≥ listing.start then
    { listing with
      first := false
      oss :=
        (if listing.first then listing.oss else listing.oss ++ [',']) ++
          regionText listing.start listing.stop
      stop := -1 }
  else listing

end Listing

/-- The iteration for one virtual id; a CPU pointer may be null. -/
def iteration (mask : List Bool) (cpus : List (Option Nat))
    (listing : Listing) (virtualCPUId : Nat) : Listing :=
  let systemCPUId : Nat :=
    if virtualCPUId < mask.length then
      (cpus[virtualCPUId]?.join).getD (2 ^ 64 - 1)
    else 2 ^ 64 - 1
  if mask[virtualCPUId]? = some true then listing.extend systemCPUId
  else listing.emit

/-- The loop up to a virtual id. -/
def listingAt (mask : List Bool) (cpus : List (Option Nat))
    (count : Nat) : Listing :=
  (List.range count).foldl (iteration mask cpus) {}

/-- The last iteration is past the end of the mask. -/
def maskToRegionList (mask : List Bool) (cpus : List (Option Nat)) :
    List Char :=
  (listingAt mask cpus (mask.length + 1)).oss

/-! ## Reading -/

def readNumber (text : List Char) : Option Nat :=
  if text.isEmpty then none
  else if text.all Char.isDigit then some (Nat.ofDigitChars 10 text 0)
  else none

/-- One number, or the first and the last one. -/
def readRegion (text : List Char) : Option (Nat × Nat) :=
  match text.splitOn '-' with
  | [number] => (readNumber number).map fun value => (value, value)
  | [start, stop] =>
      (readNumber start).bind fun first =>
        (readNumber stop).map fun last => (first, last)
  | _ => none

def readRegionList (text : List Char) : Option (List (Nat × Nat)) :=
  if text.isEmpty then some []
  else (text.splitOn ',').mapM readRegion

/-- The text lists exactly these ids. -/
def Expands (text : List Char) (ids : Nat → Prop) : Prop :=
  ∃ regions, readRegionList text = some regions ∧
    ∀ id, (∃ region ∈ regions, region.1 ≤ id ∧ id ≤ region.2) ↔ ids id

/-! ### Numbers and regions -/

theorem decimal_of_nonneg {value : Int} (nonneg : 0 ≤ value) :
    decimal value = Nat.toDigits 10 value.toNat := by
  unfold decimal
  rw [if_neg (Int.not_lt.mpr nonneg)]

theorem isDigit_of_mem_toDigits {value : Nat} {char : Char}
    (member : char ∈ Nat.toDigits 10 value) : char.isDigit = true :=
  Nat.isDigit_of_mem_toDigits (by decide) (by decide) member

theorem readNumber_toDigits (value : Nat) :
    readNumber (Nat.toDigits 10 value) = some value := by
  unfold readNumber
  rw [if_neg, if_pos, Nat.ofDigitChars_ten_toDigits]
  · rw [List.all_eq_true]
    exact fun char member => isDigit_of_mem_toDigits member
  · rw [List.isEmpty_iff]
    exact Nat.toDigits_ne_nil

theorem not_mem_toDigits (value : Nat) {char : Char}
    (notDigit : char.isDigit = false) : char ∉ Nat.toDigits 10 value := by
  intro member
  rw [isDigit_of_mem_toDigits member] at notDigit
  cases notDigit

theorem splitOn_toDigits (value : Nat) {char : Char}
    (notDigit : char.isDigit = false) :
    (Nat.toDigits 10 value).splitOn char = [Nat.toDigits 10 value] :=
  List.splitOn_eq_singleton (not_mem_toDigits value notDigit)

/-- Only a region that starts at a valid id can be read. -/
theorem readRegion_regionText {start stop : Int} (ordered : start ≤ stop) :
    readRegion (regionText start stop) =
      if 0 ≤ start then some (start.toNat, stop.toNat) else none := by
  unfold readRegion regionText
  by_cases nonneg : 0 ≤ start
  · rw [if_pos nonneg, decimal_of_nonneg nonneg,
      decimal_of_nonneg (Int.le_trans nonneg ordered)]
    by_cases same : stop = start
    · rw [if_pos same, splitOn_toDigits _ (by decide)]
      dsimp only
      rw [readNumber_toDigits, same]
      rfl
    · rw [if_neg same, List.splitOn_append_cons_self,
        splitOn_toDigits _ (by decide), splitOn_toDigits _ (by decide)]
      dsimp only [List.singleton_append]
      rw [readNumber_toDigits, readNumber_toDigits]
      rfl
  · rw [if_neg nonneg]
    have negative : decimal start = '-' :: Nat.toDigits 10 start.natAbs := by
      unfold decimal
      rw [if_pos (Int.not_le.mp nonneg)]
    -- Before a minus sign there is no number.
    have split : (decimal start).splitOn '-' =
        [[], Nat.toDigits 10 start.natAbs] := by
      have digits : (Nat.toDigits 10 start.natAbs).splitOn '-' =
          [Nat.toDigits 10 start.natAbs] := splitOn_toDigits _ (by decide)
      have parts : ('-' :: Nat.toDigits 10 start.natAbs).splitOn '-' =
          [] :: (Nat.toDigits 10 start.natAbs).splitOn '-' :=
        List.splitOn_append_cons_self [] _
      rw [negative, parts, digits]
    by_cases same : stop = start
    · rw [if_pos same, split]
      rfl
    · rw [if_neg same, List.splitOn_append_cons_self, split]
      cases rest : (decimal stop).splitOn '-' with
      | nil => exact absurd rest (List.splitOn_ne_nil _ _)
      | cons part parts => rfl

theorem not_mem_decimal (value : Int) : ',' ∉ decimal value := by
  unfold decimal
  split
  · rw [List.mem_cons, not_or]
    exact ⟨by decide, not_mem_toDigits _ (by decide)⟩
  · exact not_mem_toDigits _ (by decide)

theorem splitOn_regionText (start stop : Int) :
    (regionText start stop).splitOn ',' = [regionText start stop] := by
  apply List.splitOn_eq_singleton
  unfold regionText
  split
  · exact not_mem_decimal start
  · rw [List.mem_append, List.mem_cons, not_or, not_or]
    exact ⟨not_mem_decimal start, by decide, not_mem_decimal stop⟩

theorem regionText_ne_nil (start stop : Int) : regionText start stop ≠ [] := by
  have number : ∀ value, decimal value ≠ [] := by
    intro value
    unfold decimal
    split
    · exact List.cons_ne_nil _ _
    · exact Nat.toDigits_ne_nil
  unfold regionText
  split
  · exact number start
  · exact List.append_ne_nil_of_left_ne_nil (number start) _

/-! ## What has been written so far -/

/-- The emitted regions are separated by commas. -/
structure Listing.Writes (listing : Listing) (regions : List (Int × Int)) :
    Prop where
  first : listing.first = regions.isEmpty
  empty : regions = [] → listing.oss = []
  parts : regions ≠ [] → listing.oss.splitOn ',' =
    regions.map fun region => regionText region.1 region.2

namespace Listing.Writes

variable {listing : Listing} {regions : List (Int × Int)}

theorem extend (writes : listing.Writes regions) (systemCPUId : Nat) :
    (listing.extend systemCPUId).Writes regions := by
  unfold Listing.extend
  split <;> exact ⟨writes.first, writes.empty, writes.parts⟩

theorem emit (writes : listing.Writes regions)
    (valid : listing.stop ≥ listing.start) :
    listing.emit.Writes (regions ++ [(listing.start, listing.stop)]) := by
  unfold Listing.emit
  rw [if_pos valid]
  refine ⟨?_, ?_, ?_⟩
  · cases regions <;> rfl
  · intro empty
    exact absurd empty (List.append_ne_nil_of_right_ne_nil _ (by simp))
  · intro _
    dsimp only
    rw [writes.first, List.map_append]
    by_cases empty : regions = []
    · subst empty
      rw [writes.empty rfl]
      exact splitOn_regionText listing.start listing.stop
    · have before := writes.parts empty
      rw [List.isEmpty_eq_false_iff.mpr empty, if_neg (by decide),
        List.append_assoc, List.singleton_append,
        List.splitOn_append_cons_self, before, splitOn_regionText]
      rfl

/-- The text is read back region by region. -/
theorem readRegionList (writes : listing.Writes regions)
    (ordered : ∀ region ∈ regions, region.1 ≤ region.2) :
    CPUManager.readRegionList listing.oss =
      regions.mapM fun region =>
        if 0 ≤ region.1 then some (region.1.toNat, region.2.toNat)
        else none := by
  unfold CPUManager.readRegionList
  by_cases empty : regions = []
  · subst empty
    rw [writes.empty rfl]
    rfl
  · have parts := writes.parts empty
    have written : listing.oss.isEmpty = false := by
      rw [List.isEmpty_eq_false_iff]
      intro nothing
      obtain ⟨region, rest, rfl⟩ := List.exists_cons_of_ne_nil empty
      rw [nothing, List.splitOn_nil, List.map_cons, List.cons.injEq] at parts
      exact regionText_ne_nil _ _ parts.1.symm
    rw [written, if_neg (by decide), parts]
    clear parts written empty writes
    induction regions with
    | nil => rfl
    | cons region rest inductionHypothesis =>
        rw [List.map_cons, List.mapM_cons, List.mapM_cons,
          readRegion_regionText (ordered region List.mem_cons_self),
          inductionHypothesis fun other member =>
            ordered other (List.mem_cons_of_mem _ member)]

end Listing.Writes

theorem mapM_eq_some {regions : List (Int × Int)}
    {result : List (Nat × Nat)} :
    (regions.mapM fun region =>
        if 0 ≤ region.1 then some (region.1.toNat, region.2.toNat)
        else none) = some result ↔
      (∀ region ∈ regions, 0 ≤ region.1) ∧
        result = regions.map fun region =>
          (region.1.toNat, region.2.toNat) := by
  induction regions generalizing result with
  | nil => simp [eq_comm]
  | cons region rest inductionHypothesis =>
      rw [List.mapM_cons]
      by_cases nonneg : 0 ≤ region.1
      · have others : (∀ other ∈ region :: rest, 0 ≤ other.1) ↔
            ∀ other ∈ rest, 0 ≤ other.1 := by
          rw [List.forall_mem_cons]
          exact and_iff_right nonneg
        rw [others, List.map_cons, if_pos nonneg]
        simp only [Option.bind_eq_bind, Option.bind_some,
          Option.bind_eq_some_iff, inductionHypothesis, Option.pure_def,
          Option.some.injEq]
        constructor
        · rintro ⟨_, ⟨all, rfl⟩, rfl⟩
          exact ⟨all, rfl⟩
        · rintro ⟨all, rfl⟩
          exact ⟨_, ⟨all, rfl⟩, rfl⟩
      · simp [nonneg]

/-- The text expands to the ids in the regions, if none starts below zero. -/
theorem Listing.Writes.expands_iff {listing : Listing}
    {regions : List (Int × Int)} (writes : listing.Writes regions)
    (ordered : ∀ region ∈ regions, region.1 ≤ region.2) (ids : Nat → Prop) :
    Expands listing.oss ids ↔
      (∀ region ∈ regions, 0 ≤ region.1) ∧
        ∀ id : Nat,
          (∃ region ∈ regions, region.1 ≤ id ∧ (id : Int) ≤ region.2) ↔
            ids id := by
  unfold Expands
  simp only [writes.readRegionList ordered, mapM_eq_some]
  constructor
  · rintro ⟨_, ⟨nonneg, rfl⟩, lists⟩
    refine ⟨nonneg, fun id => ?_⟩
    rw [← lists id]
    constructor
    · rintro ⟨region, member, above, below⟩
      exact ⟨_, List.mem_map_of_mem member, by dsimp only; omega,
        by dsimp only; omega⟩
    · rintro ⟨_, member, above, below⟩
      obtain ⟨region, isRegion, rfl⟩ := List.mem_map.mp member
      have starts := nonneg region isRegion
      have order := ordered region isRegion
      dsimp only at above below
      exact ⟨region, isRegion, by omega, by omega⟩
  · rintro ⟨nonneg, lists⟩
    refine ⟨_, ⟨nonneg, rfl⟩, fun id => ?_⟩
    rw [← lists id]
    constructor
    · rintro ⟨_, member, above, below⟩
      obtain ⟨region, isRegion, rfl⟩ := List.mem_map.mp member
      have starts := nonneg region isRegion
      have order := ordered region isRegion
      dsimp only at above below
      exact ⟨region, isRegion, by omega, by omega⟩
    · rintro ⟨region, member, above, below⟩
      exact ⟨_, List.mem_map_of_mem member, by dsimp only; omega,
        by dsimp only; omega⟩

/-! ## The loop -/

section Loop

variable (mask : List Bool) (cpus : List (Option Nat))

/-- The CPU with the virtual id is in the mask. -/
def IsListed (virtualCPUId systemCPUId : Nat) : Prop :=
  mask[virtualCPUId]? = some true ∧
    cpus[virtualCPUId]? = some (some systemCPUId)

/-- The CPUs of the mask exist, and their system ids increase with the virtual
ones. -/
structure IsNumbering : Prop where
  exists_cpu : ∀ virtualCPUId : Nat, mask[virtualCPUId]? = some true →
    ∃ systemCPUId, cpus[virtualCPUId]? = some (some systemCPUId)
  increasing : ∀ {first second before after : Nat}, first < second →
    cpus[first]? = some (some before) → cpus[second]? = some (some after) →
    before < after

/-- The ids that the regions hold after some iterations: those of the CPUs, and
those between two neighbours. -/
def Reached (count id : Nat) : Prop :=
  (∃ virtualCPUId < count, IsListed mask cpus virtualCPUId id) ∨
    ∃ virtualCPUId before after, virtualCPUId + 1 < count ∧
      IsListed mask cpus virtualCPUId before ∧
      IsListed mask cpus (virtualCPUId + 1) after ∧ before < id ∧ id < after

/-- Every region is in the range of an `int`. -/
structure Bounded (listing : Listing) (regions : List (Int × Int)) :
    Prop where
  writes : listing.Writes regions
  ordered : ∀ region ∈ regions, region.1 ≤ region.2
  below : ∀ region ∈ regions, region.2 < 2 ^ 31
  stop_lt : listing.stop < 2 ^ 31

/-- The regions, with the one that is being extended, hold what has been
reached. -/
structure Covers (count : Nat) (listing : Listing)
    (regions : List (Int × Int)) : Prop where
  start_nonneg : 0 ≤ listing.start
  nonneg : ∀ region ∈ regions, 0 ≤ region.1
  extends_region : ∀ virtualCPUId systemCPUId, count = virtualCPUId + 1 →
    IsListed mask cpus virtualCPUId systemCPUId →
    listing.stop = systemCPUId ∧ listing.start ≤ systemCPUId
  invalid : (∀ virtualCPUId, count = virtualCPUId + 1 →
    mask[virtualCPUId]? ≠ some true) → listing.stop = -1
  reached : ∀ id : Nat,
    (∃ region ∈ regions, region.1 ≤ id ∧ (id : Int) ≤ region.2) ∨
      listing.start ≤ id ∧ (id : Int) ≤ listing.stop ↔
        Reached mask cpus count id

variable {mask cpus}

theorem IsListed.unique {virtualCPUId systemCPUId other : Nat}
    (isListed : IsListed mask cpus virtualCPUId systemCPUId)
    (also : IsListed mask cpus virtualCPUId other) :
    systemCPUId = other := by
  cases isListed.2.symm.trans also.2
  rfl

theorem iteration_of_listed {virtualCPUId systemCPUId : Nat}
    (isListed : IsListed mask cpus virtualCPUId systemCPUId)
    (listing : Listing) :
    iteration mask cpus listing virtualCPUId =
      listing.extend systemCPUId := by
  obtain ⟨inside, -⟩ := List.getElem?_eq_some_iff.mp isListed.1
  unfold iteration
  dsimp only
  rw [if_pos isListed.1, if_pos inside, isListed.2]
  rfl

theorem iteration_of_not_mem {virtualCPUId : Nat}
    (outside : mask[virtualCPUId]? ≠ some true) (listing : Listing) :
    iteration mask cpus listing virtualCPUId = listing.emit := by
  unfold iteration
  exact if_neg outside

theorem toInt_lt (value : Nat) : toInt value < 2 ^ 31 := by
  have bound := Int.bmod_lt (x := (value : Int)) (m := 2 ^ 32)
    (Nat.two_pow_pos 32)
  unfold toInt
  omega

theorem toInt_of_lt {value : Nat} (small : value < 2 ^ 31) :
    toInt value = value := by
  unfold toInt
  rw [Int.bmod_eq_of_le] <;> omega

/-- The regions after the open one has been emitted. -/
def Listing.emitted (listing : Listing) (regions : List (Int × Int)) :
    List (Int × Int) :=
  if listing.stop ≥ listing.start then
    regions ++ [(listing.start, listing.stop)]
  else regions

namespace Bounded

variable {listing : Listing} {regions : List (Int × Int)}

theorem extend (bounded : Bounded listing regions) (systemCPUId : Nat) :
    Bounded (listing.extend systemCPUId) regions := by
  refine ⟨bounded.writes.extend _, bounded.ordered, bounded.below, ?_⟩
  have small := toInt_lt systemCPUId
  unfold Listing.extend
  split <;> dsimp only <;> exact small

theorem emit (bounded : Bounded listing regions) :
    Bounded listing.emit (listing.emitted regions) := by
  unfold Listing.emitted
  by_cases valid : listing.stop ≥ listing.start
  · rw [if_pos valid]
    refine ⟨bounded.writes.emit valid, ?_, ?_, ?_⟩
    · intro region member
      rcases List.mem_append.mp member with old | new
      · exact bounded.ordered region old
      · rw [List.mem_singleton.mp new]
        exact valid
    · intro region member
      rcases List.mem_append.mp member with old | new
      · exact bounded.below region old
      · rw [List.mem_singleton.mp new]
        exact bounded.stop_lt
    · unfold Listing.emit
      rw [if_pos valid]
      dsimp only
      omega
  · unfold Listing.emit
    rw [if_neg valid, if_neg valid]
    exact bounded

end Bounded

/-- An id is reached by the next CPU: it is the one of this CPU, or between the
CPU and the one before. -/
theorem reached_succ {count systemCPUId : Nat}
    (isListed : IsListed mask cpus count systemCPUId) (id : Nat) :
    Reached mask cpus (count + 1) id ↔
      Reached mask cpus count id ∨ id = systemCPUId ∨
        ∃ virtualCPUId before, count = virtualCPUId + 1 ∧
          IsListed mask cpus virtualCPUId before ∧ before < id ∧
          id < systemCPUId := by
  constructor
  · rintro (⟨virtualCPUId, below, listed⟩ |
      ⟨virtualCPUId, before, after, below, isBefore, isAfter, above, under⟩)
    · rcases Nat.lt_succ_iff_lt_or_eq.mp below with earlier | rfl
      · exact Or.inl (Or.inl ⟨virtualCPUId, earlier, listed⟩)
      · exact Or.inr (Or.inl (listed.unique isListed))
    · rcases Nat.lt_succ_iff_lt_or_eq.mp below with earlier | same
      · exact Or.inl (Or.inr ⟨virtualCPUId, before, after, earlier, isBefore,
          isAfter, above, under⟩)
      · rw [same] at isAfter
        rw [isAfter.unique isListed] at under
        exact Or.inr (Or.inr ⟨virtualCPUId, before, same.symm, isBefore,
          above, under⟩)
  · rintro ((⟨virtualCPUId, below, listed⟩ |
      ⟨virtualCPUId, before, after, below, rest⟩) | rfl |
      ⟨virtualCPUId, before, rfl, isBefore, above, under⟩)
    · exact Or.inl ⟨virtualCPUId, Nat.lt_succ_of_lt below, listed⟩
    · exact Or.inr ⟨virtualCPUId, before, after, Nat.lt_succ_of_lt below,
        rest⟩
    · exact Or.inl ⟨count, Nat.lt_succ_self count, isListed⟩
    · exact Or.inr ⟨virtualCPUId, before, systemCPUId, Nat.lt_succ_self _,
        isBefore, isListed, above, under⟩

/-- Without a CPU nothing more is reached. -/
theorem reached_succ_of_not_mem {count : Nat}
    (outside : mask[count]? ≠ some true) (id : Nat) :
    Reached mask cpus (count + 1) id ↔ Reached mask cpus count id := by
  constructor
  · rintro (⟨virtualCPUId, below, listed⟩ |
      ⟨virtualCPUId, before, after, below, isBefore, isAfter, between⟩)
    · rcases Nat.lt_succ_iff_lt_or_eq.mp below with earlier | rfl
      · exact Or.inl ⟨virtualCPUId, earlier, listed⟩
      · exact absurd listed.1 outside
    · rcases Nat.lt_succ_iff_lt_or_eq.mp below with earlier | rfl
      · exact Or.inr ⟨virtualCPUId, before, after, earlier, isBefore, isAfter,
          between⟩
      · exact absurd isAfter.1 outside
  · rintro (⟨virtualCPUId, below, listed⟩ |
      ⟨virtualCPUId, before, after, below, rest⟩)
    · exact Or.inl ⟨virtualCPUId, Nat.lt_succ_of_lt below, listed⟩
    · exact Or.inr ⟨virtualCPUId, before, after, Nat.lt_succ_of_lt below,
        rest⟩

namespace Covers

variable {count : Nat} {listing : Listing} {regions : List (Int × Int)}

theorem extend (covers : Covers mask cpus count listing regions)
    (numbering : IsNumbering mask cpus) {systemCPUId : Nat}
    (isListed : IsListed mask cpus count systemCPUId)
    (small : systemCPUId < 2 ^ 31) :
    Covers mask cpus (count + 1) (listing.extend systemCPUId) regions := by
  have same := toInt_of_lt small
  by_cases continues : ∃ virtualCPUId, count = virtualCPUId + 1 ∧
      mask[virtualCPUId]? = some true
  · obtain ⟨virtualCPUId, rfl, inside⟩ := continues
    obtain ⟨before, isBefore⟩ := numbering.exists_cpu virtualCPUId inside
    have increases := numbering.increasing (Nat.lt_succ_self virtualCPUId)
      isBefore isListed.2
    obtain ⟨stop, start⟩ :=
      covers.extends_region virtualCPUId before rfl ⟨inside, isBefore⟩
    have valid : listing.stop ≥ listing.start := by omega
    unfold Listing.extend
    rw [if_pos valid, same]
    refine ⟨covers.start_nonneg, covers.nonneg, ?_, ?_, ?_⟩
    · intro other systemOther isNext listed
      cases isNext
      cases listed.unique isListed
      exact ⟨rfl, by dsimp only; omega⟩
    · intro outside
      exact absurd isListed.1 (outside _ rfl)
    · intro id
      rw [reached_succ isListed, ← covers.reached id]
      constructor
      · rintro (region | ⟨above, below⟩)
        · exact Or.inl (Or.inl region)
        · dsimp only at above below
          by_cases earlier : id ≤ before
          · exact Or.inl (Or.inr ⟨above, by omega⟩)
          · by_cases last : id = systemCPUId
            · exact Or.inr (Or.inl last)
            · exact Or.inr (Or.inr ⟨virtualCPUId, before, rfl,
                ⟨inside, isBefore⟩, by omega, by omega⟩)
      · rintro ((region | ⟨above, below⟩) | rfl |
          ⟨other, systemOther, isNext, listed, above, below⟩)
        · exact Or.inl region
        · exact Or.inr ⟨above, by dsimp only; omega⟩
        · exact Or.inr ⟨by dsimp only; omega, by dsimp only; omega⟩
        · cases isNext
          cases listed.unique ⟨inside, isBefore⟩
          exact Or.inr ⟨by dsimp only; omega, by dsimp only; omega⟩
  · have stop := covers.invalid fun virtualCPUId isNext inside =>
      continues ⟨virtualCPUId, isNext, inside⟩
    have start := covers.start_nonneg
    have invalid : ¬ listing.stop ≥ listing.start := by omega
    unfold Listing.extend
    rw [if_neg invalid, same]
    refine ⟨by dsimp only; omega, covers.nonneg, ?_, ?_, ?_⟩
    · intro other systemOther isNext listed
      cases isNext
      cases listed.unique isListed
      exact ⟨rfl, Int.le_refl _⟩
    · intro outside
      exact absurd isListed.1 (outside _ rfl)
    · intro id
      rw [reached_succ isListed, ← covers.reached id]
      constructor
      · rintro (region | ⟨above, below⟩)
        · exact Or.inl (Or.inl region)
        · dsimp only at above below
          exact Or.inr (Or.inl (by omega))
      · rintro ((region | ⟨above, below⟩) | rfl |
          ⟨other, systemOther, isNext, listed, above, below⟩)
        · exact Or.inl region
        · omega
        · exact Or.inr ⟨Int.le_refl _, Int.le_refl _⟩
        · exact absurd ⟨other, isNext, listed.1⟩ continues

theorem emit (covers : Covers mask cpus count listing regions)
    (numbering : IsNumbering mask cpus) (outside : mask[count]? ≠ some true) :
    Covers mask cpus (count + 1) listing.emit
      (listing.emitted regions) := by
  have noneListed : ∀ virtualCPUId systemCPUId, count + 1 = virtualCPUId + 1 →
      ¬ IsListed mask cpus virtualCPUId systemCPUId := by
    intro virtualCPUId systemCPUId isNext listed
    cases isNext
    exact outside listed.1
  unfold Listing.emit Listing.emitted
  by_cases valid : listing.stop ≥ listing.start
  · rw [if_pos valid, if_pos valid]
    refine ⟨covers.start_nonneg, ?_, ?_, fun _ => rfl, ?_⟩
    · intro region member
      rcases List.mem_append.mp member with old | new
      · exact covers.nonneg region old
      · rw [List.mem_singleton.mp new]
        exact covers.start_nonneg
    · intro virtualCPUId systemCPUId isNext listed
      exact absurd listed (noneListed virtualCPUId systemCPUId isNext)
    · intro id
      rw [reached_succ_of_not_mem outside, ← covers.reached id]
      constructor
      · rintro (⟨region, member, bounds⟩ | ⟨above, below⟩)
        · rcases List.mem_append.mp member with old | new
          · exact Or.inl ⟨region, old, bounds⟩
          · rw [List.mem_singleton.mp new] at bounds
            exact Or.inr bounds
        · dsimp only at above below
          omega
      · rintro (⟨region, member, bounds⟩ | bounds)
        · exact Or.inl ⟨region, List.mem_append_left _ member, bounds⟩
        · exact Or.inl ⟨_, List.mem_append_right _ List.mem_cons_self,
            bounds⟩
  · rw [if_neg valid, if_neg valid]
    refine ⟨covers.start_nonneg, covers.nonneg, ?_, ?_, ?_⟩
    · intro virtualCPUId systemCPUId isNext listed
      exact absurd listed (noneListed virtualCPUId systemCPUId isNext)
    · intro _
      apply covers.invalid
      intro virtualCPUId isNext inside
      obtain ⟨systemCPUId, found⟩ := numbering.exists_cpu virtualCPUId inside
      obtain ⟨stop, start⟩ :=
        covers.extends_region virtualCPUId systemCPUId isNext ⟨inside, found⟩
      omega
    · intro id
      rw [reached_succ_of_not_mem outside]
      exact covers.reached id

end Covers

theorem listingAt_succ (count : Nat) :
    listingAt mask cpus (count + 1) =
      iteration mask cpus (listingAt mask cpus count) count := by
  unfold listingAt
  rw [List.range_succ, List.foldl_append]
  rfl

theorem covers_listingAt (numbering : IsNumbering mask cpus) (count : Nat) :
    ∃ regions, Bounded (listingAt mask cpus count) regions ∧
      ((∀ virtualCPUId systemCPUId,
        IsListed mask cpus virtualCPUId systemCPUId →
          systemCPUId < 2 ^ 31) →
        Covers mask cpus count (listingAt mask cpus count) regions) := by
  induction count with
  | zero =>
      refine ⟨[], ⟨⟨rfl, fun _ => rfl, fun some => absurd rfl some⟩,
        by simp, by simp, by change (-1 : Int) < 2 ^ 31; omega⟩, fun _ => ?_⟩
      refine ⟨Int.le_refl 0, by simp, by simp, fun _ => rfl, fun id => ?_⟩
      constructor
      · rintro (⟨_, member, -⟩ | ⟨_, below⟩)
        · cases member
        · change (id : Int) ≤ -1 at below
          omega
      · rintro (⟨_, below, -⟩ | ⟨_, _, _, below, -⟩) <;> omega
  | succ count inductionHypothesis =>
      obtain ⟨regions, bounded, covers⟩ := inductionHypothesis
      rw [listingAt_succ]
      by_cases inside : mask[count]? = some true
      · obtain ⟨systemCPUId, found⟩ := numbering.exists_cpu count inside
        have isListed : IsListed mask cpus count systemCPUId :=
          ⟨inside, found⟩
        rw [iteration_of_listed isListed]
        exact ⟨regions, bounded.extend systemCPUId, fun small =>
          (covers small).extend numbering isListed
            (small count systemCPUId isListed)⟩
      · rw [iteration_of_not_mem inside]
        exact ⟨_, bounded.emit, fun small =>
          (covers small).emit numbering inside⟩

/-- The list expands to the ids of the CPUs exactly if no two of them with
consecutive virtual ids have a gap between their system ids, and these are in the
range of an `int`. -/
theorem expands_maskToRegionList_iff (numbering : IsNumbering mask cpus) :
    Expands (maskToRegionList mask cpus)
        (fun id => ∃ virtualCPUId, IsListed mask cpus virtualCPUId id) ↔
      (∀ virtualCPUId before after,
        IsListed mask cpus virtualCPUId before →
        IsListed mask cpus (virtualCPUId + 1) after → after = before + 1) ∧
      ∀ virtualCPUId systemCPUId,
        IsListed mask cpus virtualCPUId systemCPUId →
          systemCPUId < 2 ^ 31 := by
  obtain ⟨regions, bounded, covers⟩ :=
    covers_listingAt numbering (mask.length + 1)
  have within : ∀ {virtualCPUId systemCPUId},
      IsListed mask cpus virtualCPUId systemCPUId →
        virtualCPUId < mask.length + 1 := by
    intro virtualCPUId systemCPUId listed
    obtain ⟨inside, -⟩ := List.getElem?_eq_some_iff.mp listed.1
    exact Nat.lt_succ_of_lt inside
  -- The iteration past the end leaves no region open.
  have holds : (∀ virtualCPUId systemCPUId,
      IsListed mask cpus virtualCPUId systemCPUId → systemCPUId < 2 ^ 31) →
      ∀ id : Nat,
        (∃ region ∈ regions, region.1 ≤ id ∧ (id : Int) ≤ region.2) ↔
          Reached mask cpus (mask.length + 1) id := by
    intro small id
    have final := covers small
    have stop := final.invalid fun virtualCPUId isNext inside => by
      cases isNext
      rw [List.getElem?_eq_none (Nat.le_refl _)] at inside
      cases inside
    rw [← final.reached id]
    refine ⟨Or.inl, ?_⟩
    rintro (region | ⟨_, below⟩)
    · exact region
    · rw [stop] at below
      omega
  unfold maskToRegionList
  rw [bounded.writes.expands_iff bounded.ordered]
  constructor
  · rintro ⟨_, lists⟩
    have small : ∀ virtualCPUId systemCPUId,
        IsListed mask cpus virtualCPUId systemCPUId →
          systemCPUId < 2 ^ 31 := by
      intro virtualCPUId systemCPUId listed
      obtain ⟨region, member, -, below⟩ :=
        (lists systemCPUId).mpr ⟨virtualCPUId, listed⟩
      have bound := bounded.below region member
      omega
    refine ⟨?_, small⟩
    intro virtualCPUId before after isBefore isAfter
    by_contra gap
    have increases := numbering.increasing (Nat.lt_succ_self virtualCPUId)
      isBefore.2 isAfter.2
    have reached : Reached mask cpus (mask.length + 1) (before + 1) :=
      Or.inr ⟨virtualCPUId, before, after, within isAfter, isBefore, isAfter,
        Nat.lt_succ_self before, by omega⟩
    obtain ⟨other, listed⟩ :=
      (lists (before + 1)).mp ((holds small _).mpr reached)
    rcases Nat.lt_trichotomy other virtualCPUId with earlier | rfl | later
    · have := numbering.increasing earlier listed.2 isBefore.2
      omega
    · have := listed.unique isBefore
      omega
    · rcases Nat.lt_or_eq_of_le later with above | rfl
      · have := numbering.increasing above isAfter.2 listed.2
        omega
      · exact gap (isAfter.unique listed)
  · rintro ⟨consecutive, small⟩
    refine ⟨(covers small).nonneg, fun id => ?_⟩
    rw [holds small id]
    constructor
    · rintro (⟨virtualCPUId, _, listed⟩ |
        ⟨virtualCPUId, before, after, -, isBefore, isAfter, above, below⟩)
      · exact ⟨virtualCPUId, listed⟩
      · have next := consecutive virtualCPUId before after isBefore isAfter
        omega
    · rintro ⟨virtualCPUId, listed⟩
      exact Or.inl ⟨virtualCPUId, within listed, listed⟩

end Loop

/-- Every virtual id has a CPU. -/
theorem isNumbering_map_some {mask : List Bool} {ids : List Nat}
    (covered : mask.length ≤ ids.length)
    (increasing : ids.Pairwise fun before after => before < after) :
    IsNumbering mask (ids.map some) := by
  refine ⟨?_, ?_⟩
  · intro virtualCPUId inside
    obtain ⟨below, -⟩ := List.getElem?_eq_some_iff.mp inside
    have within : virtualCPUId < ids.length := Nat.lt_of_lt_of_le below covered
    exact ⟨ids[virtualCPUId], by simp [within]⟩
  · intro first second before after order isBefore isAfter
    rw [List.getElem?_map, Option.map_eq_some_iff] at isBefore isAfter
    obtain ⟨_, foundBefore, ⟨⟩⟩ := isBefore
    obtain ⟨_, foundAfter, ⟨⟩⟩ := isAfter
    obtain ⟨firstBelow, rfl⟩ := List.getElem?_eq_some_iff.mp foundBefore
    obtain ⟨secondBelow, rfl⟩ := List.getElem?_eq_some_iff.mp foundAfter
    exact List.pairwise_iff_getElem.mp increasing first second firstBelow
      secondBelow order

/-- Two CPUs with consecutive ids and one apart. -/
theorem expands_three_cpus :
    maskToRegionList [true, true, false, true]
        [some 2, some 3, some 5, some 8] = ['2', '-', '3', ',', '8'] ∧
      Expands (maskToRegionList [true, true, false, true]
        [some 2, some 3, some 5, some 8])
        (fun id => ∃ virtualCPUId, IsListed [true, true, false, true]
          [some 2, some 3, some 5, some 8] virtualCPUId id) := by
  have numbering : IsNumbering [true, true, false, true]
      [some 2, some 3, some 5, some 8] :=
    @isNumbering_map_some _ [2, 3, 5, 8] (by decide) (by decide)
  refine ⟨by decide, (expands_maskToRegionList_iff numbering).mpr ⟨?_, ?_⟩⟩
  · clear numbering
    rintro virtualCPUId before after ⟨inside, isBefore⟩ ⟨next, isAfter⟩
    rcases virtualCPUId with _ | _ | _ | _ | _ <;> simp at inside next
    cases isBefore
    cases isAfter
    rfl
  · rintro virtualCPUId systemCPUId ⟨inside, found⟩
    rcases virtualCPUId with _ | _ | _ | _ | _ <;> simp at inside <;>
      cases found <;> decide

/-- CPU 1 is in the list `0-2` of the CPUs 0 and 2. -/
theorem expands_maskToRegionList_fails :
    ¬ ∀ (mask : List Bool) (cpus : List (Option Nat)),
      IsNumbering mask cpus →
        Expands (maskToRegionList mask cpus)
          (fun id => ∃ virtualCPUId,
            IsListed mask cpus virtualCPUId id) := by
  intro expands
  have numbering : IsNumbering [true, true] [some 0, some 2] :=
    @isNumbering_map_some _ [0, 2] (by decide) (by decide)
  obtain ⟨regions, isRegions, lists⟩ :=
    expands [true, true] [some 0, some 2] numbering
  have whole : readRegionList
      (maskToRegionList [true, true] [some 0, some 2]) = some [(0, 2)] := by
    decide
  cases whole.symm.trans isRegions
  obtain ⟨virtualCPUId, inside, found⟩ :=
    (lists 1).mp ⟨(0, 2), List.mem_singleton.mpr rfl, by decide, by decide⟩
  rcases virtualCPUId with _ | _ | _ <;> simp_all

/-! ## The masks of the NUMA nodes -/

/-- What `preinitialize` reads of a CPU. -/
structure ComputePlace where
  systemCPUId : Nat
  numaNodeId : Nat

/-- `_cpus`, `_NUMANodeMask` and `_totalCPUs`. -/
structure CPUs where
  cpus : List (Option Nat)
  numaNodeMask : Nat → List Bool
  totalCPUs : Nat

/-- The CPUs of the process get the virtual ids in their order. -/
def CPUs.add (processCPUMask : Nat → Bool) (state : CPUs)
    (cpu : ComputePlace) : CPUs :=
  if processCPUMask cpu.systemCPUId then
    { cpus := state.cpus.set state.totalCPUs (some cpu.systemCPUId)
      numaNodeMask :=
        Function.update state.numaNodeMask cpu.numaNodeId
          ((state.numaNodeMask cpu.numaNodeId).set state.totalCPUs true)
      totalCPUs := state.totalCPUs + 1 }
  else state

def preinitialize (cpus : List ComputePlace)
    (processCPUMask : Nat → Bool) : CPUs :=
  cpus.foldl (CPUs.add processCPUMask)
    { cpus := List.replicate cpus.length none
      numaNodeMask := fun _ => List.replicate cpus.length false
      totalCPUs := 0 }

/-- The virtual ids that have been given out are those of CPUs with increasing
system ids. -/
structure CPUs.IsNumbered (state : CPUs) (processCPUMask : Nat → Bool) :
    Prop where
  fits : ∀ virtualCPUId < state.totalCPUs, virtualCPUId < state.cpus.length →
    ∃ systemCPUId, state.cpus[virtualCPUId]? = some (some systemCPUId)
  given : ∀ {virtualCPUId systemCPUId : Nat},
    state.cpus[virtualCPUId]? = some (some systemCPUId) →
      virtualCPUId < state.totalCPUs ∧ processCPUMask systemCPUId = true
  increasing : ∀ {first second before after : Nat}, first < second →
    state.cpus[first]? = some (some before) →
    state.cpus[second]? = some (some after) → before < after
  length : ∀ node, (state.numaNodeMask node).length = state.cpus.length
  masked : ∀ {node virtualCPUId : Nat},
    (state.numaNodeMask node)[virtualCPUId]? = some true →
      virtualCPUId < state.totalCPUs

theorem CPUs.IsNumbered.add {state : CPUs} {processCPUMask : Nat → Bool}
    (numbered : state.IsNumbered processCPUMask) {cpu : ComputePlace}
    (above : ∀ {virtualCPUId systemCPUId : Nat},
      state.cpus[virtualCPUId]? = some (some systemCPUId) →
        systemCPUId < cpu.systemCPUId) :
    (state.add processCPUMask cpu).IsNumbered processCPUMask := by
  unfold CPUs.add
  split
  · rename_i inProcess
    have read : ∀ {virtualCPUId systemCPUId : Nat},
        (state.cpus.set state.totalCPUs
          (some cpu.systemCPUId))[virtualCPUId]? =
            some (some systemCPUId) →
        virtualCPUId = state.totalCPUs ∧ systemCPUId = cpu.systemCPUId ∨
          state.cpus[virtualCPUId]? = some (some systemCPUId) := by
      intro virtualCPUId systemCPUId found
      rw [List.getElem?_set] at found
      split at found
      · rename_i same
        split at found
        · cases found
          exact Or.inl ⟨same.symm, rfl⟩
        · cases found
      · exact Or.inr found
    refine ⟨?_, ?_, ?_, ?_, ?_⟩
    · intro virtualCPUId below inside
      dsimp only at below inside ⊢
      rw [List.length_set] at inside
      rw [List.getElem?_set]
      by_cases same : state.totalCPUs = virtualCPUId
      · rw [if_pos same, if_pos (same ▸ inside)]
        exact ⟨cpu.systemCPUId, rfl⟩
      · rw [if_neg same]
        exact numbered.fits virtualCPUId (by omega) inside
    · intro virtualCPUId systemCPUId found
      rcases read found with ⟨rfl, rfl⟩ | old
      · exact ⟨Nat.lt_succ_self _, inProcess⟩
      · obtain ⟨below, known⟩ := numbered.given old
        exact ⟨Nat.lt_succ_of_lt below, known⟩
    · intro first second before after order isBefore isAfter
      rcases read isAfter with ⟨rfl, rfl⟩ | oldAfter
      · rcases read isBefore with ⟨rfl, rfl⟩ | oldBefore
        · exact absurd order (Nat.lt_irrefl _)
        · exact above oldBefore
      · rcases read isBefore with ⟨rfl, rfl⟩ | oldBefore
        · have := (numbered.given oldAfter).1
          omega
        · exact numbered.increasing order oldBefore oldAfter
    · intro node
      dsimp only
      rw [List.length_set, Function.update_apply]
      split
      · rename_i same
        rw [List.length_set, ← same, numbered.length]
      · exact numbered.length node
    · intro node virtualCPUId inside
      dsimp only at inside ⊢
      rw [Function.update_apply] at inside
      split at inside
      · rw [List.getElem?_set] at inside
        split at inside
        · omega
        · exact Nat.lt_succ_of_lt (numbered.masked inside)
      · exact Nat.lt_succ_of_lt (numbered.masked inside)
  · exact numbered

theorem isNumbered_foldl {processCPUMask : Nat → Bool}
    (rest : List ComputePlace) {state : CPUs}
    (numbered : state.IsNumbered processCPUMask)
    (above : ∀ cpu ∈ rest, ∀ {virtualCPUId systemCPUId : Nat},
      state.cpus[virtualCPUId]? = some (some systemCPUId) →
        systemCPUId < cpu.systemCPUId)
    (increasing : rest.Pairwise fun before after =>
      before.systemCPUId < after.systemCPUId) :
    (rest.foldl (CPUs.add processCPUMask) state).IsNumbered
      processCPUMask := by
  induction rest generalizing state with
  | nil => exact numbered
  | cons cpu rest inductionHypothesis =>
      obtain ⟨below, later⟩ := List.pairwise_cons.mp increasing
      rw [List.foldl_cons]
      refine inductionHypothesis
        (numbered.add (above cpu List.mem_cons_self)) ?_ later
      intro other member virtualCPUId systemCPUId found
      unfold CPUs.add at found
      split at found
      · dsimp only at found
        rw [List.getElem?_set] at found
        split at found
        · split at found
          · cases found
            exact below other member
          · cases found
        · exact above other (List.mem_cons_of_mem _ member) found
      · exact above other (List.mem_cons_of_mem _ member) found

/-- If the CPUs of the machine are in the order of their system ids, then so are
the virtual ids. -/
theorem isNumbered_preinitialize {cpus : List ComputePlace}
    (increasing : cpus.Pairwise fun before after =>
      before.systemCPUId < after.systemCPUId)
    (processCPUMask : Nat → Bool) :
    let state := preinitialize cpus processCPUMask
    state.IsNumbered processCPUMask := by
  refine isNumbered_foldl cpus ⟨?_, ?_, ?_, ?_, ?_⟩ ?_ increasing
  · intro virtualCPUId impossible
    exact absurd impossible (Nat.not_lt_zero _)
  · intro virtualCPUId systemCPUId found
    simp [List.getElem?_replicate] at found
  · intro first second before after _ found
    simp [List.getElem?_replicate] at found
  · intro node
    simp
  · intro node virtualCPUId inside
    simp [List.getElem?_replicate] at inside
  · intro cpu _ virtualCPUId systemCPUId found
    simp [List.getElem?_replicate] at found

/-- What `maskToRegionList` is given for a NUMA node. -/
theorem isNumbering_numaNodeMask {cpus : List ComputePlace}
    (increasing : cpus.Pairwise fun before after =>
      before.systemCPUId < after.systemCPUId)
    (processCPUMask : Nat → Bool) (node : Nat) :
    let state := preinitialize cpus processCPUMask
    IsNumbering (state.numaNodeMask node) state.cpus := by
  intro state
  have numbered := isNumbered_preinitialize increasing processCPUMask
  refine ⟨?_, numbered.increasing⟩
  intro virtualCPUId inside
  obtain ⟨below, -⟩ := List.getElem?_eq_some_iff.mp inside
  rw [numbered.length node] at below
  exact numbered.fits virtualCPUId (numbered.masked inside) below

end Nanos6.CPUManager
