import Mathlib.Data.List.Chain
import Nanos6.Dependencies.Upgrades

/-!
# The symbols of the accesses of a task

A registration collects the symbols of all accesses that it meets and gives them,
with its own, to its whole region.  A symbol so gets to the bytes of every later
registration that overlaps one that has it, also where no registration with the
symbol is.  The symbols are a bitset, which refuses an index beyond its size.
-/

namespace Nanos6

open Foundation

/-- A call of one of the `nanos6_register_*_depinfo` functions.  A negative index
stands for no symbol. -/
structure DepinfoCall where
  type : DataAccessType
  weak : Bool
  region : DataAccessRegion
  symbolIndex : Int
  reductionTypeAndOperatorIndex : Option Nat := none
  deriving DecidableEq

namespace DepinfoCall

/-- The declaration of a call whose index is within the bitset. -/
def declaration (call : DepinfoCall) : AccessDeclaration where
  type := call.type
  weak := call.weak
  region := call.region
  symbolIndex :=
    if inside : 0 ≤ call.symbolIndex ∧ call.symbolIndex < maxSymbols then
      some ⟨call.symbolIndex.toNat, by omega⟩
    else none
  reductionTypeAndOperatorIndex := call.reductionTypeAndOperatorIndex

/-- `std::bitset::set` throws for an index beyond the bitset, before which an
empty region is ignored. -/
def register (task : TaskId) (accesses : IntervalMap DataAccess)
    (call : DepinfoCall) : Option (IntervalMap DataAccess) :=
  if call.region.Nonempty ∧ maxSymbols ≤ call.symbolIndex then none
  else registerTaskDataAccess task accesses call.declaration

/-- All calls of a task, one after the other. -/
def registerAll (task : TaskId) :
    List DepinfoCall → Option (IntervalMap DataAccess) :=
  List.foldlM (register task) IntervalMap.empty

theorem symbolIndex_declaration (call : DepinfoCall)
    (symbol : Fin maxSymbols) :
    call.declaration.symbolIndex = some symbol ↔
      call.symbolIndex = (symbol : Nat) := by
  have bound := symbol.isLt
  unfold declaration
  dsimp only
  split
  · rw [Option.some.injEq, Fin.ext_iff]
    dsimp only
    omega
  · simp only [reduceCtorEq, false_iff]
    omega

/-- The calls go through if all indices are within the bitset, and their
declarations do. -/
theorem foldlM_register_eq_some_iff (task : TaskId)
    (calls : List DepinfoCall) :
    ∀ accesses result : IntervalMap DataAccess,
      calls.foldlM (register task) accesses = some result ↔
        (∀ call ∈ calls, call.region.Nonempty →
          call.symbolIndex < maxSymbols) ∧
        (calls.map declaration).foldlM (registerTaskDataAccess task)
          accesses = some result := by
  induction calls with
  | nil => simp
  | cons call rest inductionHypothesis =>
      intro accesses result
      rw [List.foldlM_cons, List.map_cons, List.foldlM_cons,
        List.forall_mem_cons, register]
      split
      · rename_i beyond
        simp only [Option.bind_eq_bind, Option.bind_none, reduceCtorEq,
          false_iff]
        rintro ⟨⟨within, -⟩, -⟩
        exact absurd (within beyond.1) (by omega)
      · rename_i inside
        have within : call.region.Nonempty →
            call.symbolIndex < maxSymbols := by
          intro nonempty
          by_contra beyond
          exact inside ⟨nonempty, by omega⟩
        simp only [Option.bind_eq_bind, Option.bind_eq_some_iff,
          inductionHypothesis]
        constructor
        · rintro ⟨next, taken, others, continued⟩
          exact ⟨⟨within, others⟩, next, taken, continued⟩
        · rintro ⟨⟨-, others⟩, next, taken, continued⟩
          exact ⟨next, taken, others, continued⟩

end DepinfoCall

/-- The symbols of the access at a byte are those of the calls over the byte. -/
def TracksSymbols (calls : List DepinfoCall)
    (accesses : IntervalMap DataAccess) : Prop :=
  ∀ address access, accesses.lookup address = some access →
    ∀ symbol : Fin maxSymbols, symbol ∈ access.symbols ↔
      ∃ call ∈ calls,
        call.symbolIndex = (symbol : Nat) ∧ address ∈ call.region

/-- Some of the registrations, in their order, each overlapping the next one, lead
from one with the symbol to one over the byte. -/
def SpreadsTo (declarations : List AccessDeclaration)
    (symbol : Fin maxSymbols) (address : Nat) : Prop :=
  ∃ chain : List AccessDeclaration, chain.Sublist declarations ∧
    chain.IsChain (fun before after => before.region.Meets after.region) ∧
    (∃ first ∈ chain.head?, first.symbolIndex = some symbol) ∧
    ∃ last ∈ chain.getLast?, address ∈ last.region

/-- The access at the byte has the symbol. -/
def HasSymbol (accesses : IntervalMap DataAccess)
    (symbol : Fin maxSymbols) (address : Nat) : Prop :=
  ∃ access, accesses.lookup address = some access ∧ symbol ∈ access.symbols

/-! ## One registration -/

theorem mem_declaredSymbols {accesses : IntervalMap DataAccess}
    {declaration : AccessDeclaration} {symbol : Fin maxSymbols} :
    symbol ∈ declaredSymbols accesses declaration ↔
      declaration.symbolIndex = some symbol ∨
        ∃ address ∈ declaration.region,
          HasSymbol accesses symbol address := by
  have collected : ∀ (pieces : List (Piece DataAccess))
      (symbols : Finset (Fin maxSymbols)),
      symbol ∈ pieces.foldl
          (fun symbols piece =>
            if piece.interval.Meets declaration.region then
              symbols ∪ piece.value.symbols
            else symbols) symbols ↔
        symbol ∈ symbols ∨ ∃ piece ∈ pieces,
          piece.interval.Meets declaration.region ∧
            symbol ∈ piece.value.symbols := by
    intro pieces
    induction pieces with
    | nil => simp
    | cons piece rest inductionHypothesis =>
        intro symbols
        rw [List.foldl_cons, inductionHypothesis]
        by_cases meets : piece.interval.Meets declaration.region
        · simp [meets, or_assoc]
        · simp [meets]
  unfold declaredSymbols
  rw [collected]
  have own : symbol ∈ (declaration.symbolIndex.elim
      (∅ : Finset (Fin maxSymbols))
      fun symbol => {symbol}) ↔ declaration.symbolIndex = some symbol := by
    cases declaration.symbolIndex <;> simp [eq_comm]
  rw [own]
  refine or_congr Iff.rfl ⟨?_, ?_⟩
  · rintro ⟨piece, member, meets, has⟩
    have shared : max piece.interval.start declaration.region.start ∈
        piece.interval.inter declaration.region := ⟨Nat.le_refl _, meets⟩
    obtain ⟨inPiece, inside⟩ := Interval.mem_inter.mp shared
    exact ⟨_, inside, piece.value, accesses.lookup_of_mem member inPiece, has⟩
  · rintro ⟨address, inside, access, found, has⟩
    obtain ⟨piece, member, inPiece, rfl⟩ := accesses.lookup_eq_some.mp found
    exact ⟨piece, member, Interval.meets_of_mem inPiece inside, has⟩

theorem symbols_upgradeAccess (access : DataAccess)
    (declaration : AccessDeclaration) :
    ((upgradeAccess access declaration).getD access).symbols =
      access.symbols := by
  unfold upgradeAccess
  dsimp only
  split
  · split <;> rfl
  · split <;> rfl

/-- The registration gives the same symbols to its whole region. -/
theorem hasSymbol_registerTaskDataAccess {task : TaskId}
    {accesses result : IntervalMap DataAccess}
    {declaration : AccessDeclaration}
    (registered : registerTaskDataAccess task accesses declaration =
      some result) (symbol : Fin maxSymbols) (address : Nat) :
    HasSymbol result symbol address ↔
      HasSymbol accesses symbol address ∨
        address ∈ declaration.region ∧
          (declaration.symbolIndex = some symbol ∨
            ∃ other ∈ declaration.region,
              HasSymbol accesses symbol other) := by
  by_cases positive : declaration.region.Nonempty
  · obtain ⟨-, read⟩ :=
      lookup_registerTaskDataAccess positive registered address
    by_cases inside : address ∈ declaration.region
    · rw [if_pos inside] at read
      rw [← mem_declaredSymbols]
      unfold HasSymbol
      rw [read]
      cases found : accesses.lookup address with
      | none => simp [inside]
      | some access =>
          have kept := symbols_upgradeAccess access declaration
          simp [inside, kept]
    · rw [if_neg inside] at read
      unfold HasSymbol
      rw [read]
      simp [inside]
  · have nowhere : address ∉ declaration.region := by
      intro inside
      exact positive (Nat.lt_of_le_of_lt inside.1 inside.2)
    unfold registerTaskDataAccess at registered
    rw [decide_eq_false positive, Bool.not_false, if_pos rfl] at registered
    cases registered
    simp [nowhere]

theorem not_spreadsTo_nil {symbol : Fin maxSymbols} {address : Nat} :
    ¬ SpreadsTo [] symbol address := by
  rintro ⟨chain, sublist, -, ⟨first, isFirst, -⟩, -⟩
  rw [List.sublist_nil.mp sublist] at isFirst
  cases isFirst

/-- The last registration ends a chain or is not part of it. -/
theorem spreadsTo_append {declarations : List AccessDeclaration}
    {declaration : AccessDeclaration} {symbol : Fin maxSymbols}
    {address : Nat} :
    SpreadsTo (declarations ++ [declaration]) symbol address ↔
      SpreadsTo declarations symbol address ∨
        address ∈ declaration.region ∧
          (declaration.symbolIndex = some symbol ∨
            ∃ other ∈ declaration.region,
              SpreadsTo declarations symbol other) := by
  constructor
  · rintro ⟨chain, sublist, isChain, first, last⟩
    obtain ⟨before, rest, rfl, fromBefore, fromLast⟩ :=
      List.sublist_append_iff.mp sublist
    rcases List.sublist_singleton.mp fromLast with rfl | rfl
    · rw [List.append_nil] at isChain first last
      exact Or.inl ⟨before, fromBefore, isChain, first, last⟩
    · right
      obtain ⟨isBefore, -, joint⟩ := List.isChain_append.mp isChain
      obtain ⟨ending, isEnd, inside⟩ := last
      rw [List.getLast?_concat] at isEnd
      cases isEnd
      refine ⟨inside, ?_⟩
      cases ends : before.getLast? with
      | none =>
          obtain rfl := List.getLast?_eq_none_iff.mp ends
          obtain ⟨_, ⟨⟩, index⟩ := first
          exact Or.inl index
      | some previous =>
          have meets := joint previous ends declaration rfl
          have shared : max previous.region.start declaration.region.start ∈
              previous.region.inter declaration.region :=
            ⟨Nat.le_refl _, meets⟩
          obtain ⟨inPrevious, inLast⟩ := Interval.mem_inter.mp shared
          have nonempty : before ≠ [] := by
            rintro rfl
            cases ends
          rw [List.head?_append_of_ne_nil before nonempty] at first
          exact Or.inr ⟨_, inLast, before, fromBefore, isBefore, first,
            previous, ends, inPrevious⟩
  · rintro (⟨chain, sublist, isChain, first, last⟩ |
      ⟨inside, index | ⟨other, inLast, chain, sublist, isChain, first,
        previous, ends, inPrevious⟩⟩)
    · exact ⟨chain, sublist.trans (List.sublist_append_left _ _), isChain,
        first, last⟩
    · exact ⟨[declaration], List.sublist_append_right _ _,
        List.isChain_singleton _, ⟨declaration, rfl, index⟩,
        declaration, rfl, inside⟩
    · refine ⟨chain ++ [declaration], sublist.append (List.Sublist.refl _),
        ?_, ?_, declaration, List.getLast?_concat .., inside⟩
      · refine List.isChain_append.mpr
          ⟨isChain, List.isChain_singleton _, ?_⟩
        intro before isEnd after isFirst
        cases isEnd.symm.trans ends
        cases isFirst
        exact Interval.meets_of_mem inPrevious inLast
      · obtain ⟨start, isStart, index⟩ := first
        refine ⟨start, ?_, index⟩
        rw [List.head?_append, Option.mem_def.mp isStart]
        rfl

/-! ## All registrations -/

theorem hasSymbol_foldlM {task : TaskId}
    {accesses result : IntervalMap DataAccess}
    {declarations : List AccessDeclaration}
    (known : ∀ symbol address, HasSymbol accesses symbol address ↔
      SpreadsTo declarations symbol address)
    (more : List AccessDeclaration)
    (registered : more.foldlM (registerTaskDataAccess task) accesses =
      some result) (symbol : Fin maxSymbols) (address : Nat) :
    HasSymbol result symbol address ↔
      SpreadsTo (declarations ++ more) symbol address := by
  induction more generalizing accesses declarations with
  | nil =>
      cases registered
      rw [List.append_nil]
      exact known symbol address
  | cons declaration rest inductionHypothesis =>
      rw [List.foldlM_cons] at registered
      obtain ⟨next, taken, continued⟩ :=
        Option.bind_eq_some_iff.mp registered
      have shape : declarations ++ declaration :: rest =
          declarations ++ [declaration] ++ rest := by
        rw [List.append_assoc]
        rfl
      rw [shape]
      refine inductionHypothesis (fun symbol address => ?_) continued
      rw [hasSymbol_registerTaskDataAccess taken, spreadsTo_append]
      simp only [known]

theorem hasSymbol_registerDepinfo {task : TaskId}
    {declarations : List AccessDeclaration}
    {accesses : IntervalMap DataAccess}
    (registered : registerDepinfo task declarations = some accesses)
    (symbol : Fin maxSymbols) (address : Nat) :
    HasSymbol accesses symbol address ↔
      SpreadsTo declarations symbol address := by
  change _ ↔ SpreadsTo ([] ++ declarations) symbol address
  refine hasSymbol_foldlM (fun symbol address => ?_) declarations registered
    symbol address
  refine iff_of_false ?_ not_spreadsTo_nil
  rintro ⟨access, found, -⟩
  rw [IntervalMap.lookup_empty] at found
  cases found

/-- A registration over a byte brings its symbol there. -/
theorem spreadsTo_of_mem {declarations : List AccessDeclaration}
    {declaration : AccessDeclaration} (member : declaration ∈ declarations)
    {symbol : Fin maxSymbols} {address : Nat}
    (index : declaration.symbolIndex = some symbol)
    (inside : address ∈ declaration.region) :
    SpreadsTo declarations symbol address :=
  ⟨[declaration], List.singleton_sublist.mpr member,
    List.isChain_singleton _, ⟨declaration, rfl, index⟩, declaration, rfl,
    inside⟩

/-- Fragmentation copies the symbols. -/
theorem lookup_foldl_cut (accesses : IntervalMap DataAccess)
    (regions : List DataAccessRegion) (address : Nat) :
    (regions.foldl IntervalMap.cut accesses).lookup address =
      accesses.lookup address := by
  induction regions generalizing accesses with
  | nil => rfl
  | cons region rest inductionHypothesis =>
      rw [List.foldl_cons, inductionHypothesis, IntervalMap.lookup_cut]

/-- The accesses after a fragmentation have the symbols that spread to them. -/
theorem tracksSymbols_registerDepinfo_iff {task : TaskId}
    {calls : List DepinfoCall} {accesses : IntervalMap DataAccess}
    (registered : registerDepinfo task (calls.map DepinfoCall.declaration) =
      some accesses) :
    (∀ regions : List DataAccessRegion,
      TracksSymbols calls (regions.foldl IntervalMap.cut accesses)) ↔
    ∀ symbol address,
      SpreadsTo (calls.map DepinfoCall.declaration) symbol address →
        ∃ call ∈ calls,
          call.symbolIndex = (symbol : Nat) ∧ address ∈ call.region := by
  have spread := hasSymbol_registerDepinfo registered
  constructor
  · intro tracks symbol address spreads
    obtain ⟨access, found, has⟩ := (spread symbol address).mpr spreads
    exact (tracks [] address access found symbol).mp has
  · intro covered regions address access found symbol
    rw [lookup_foldl_cut] at found
    constructor
    · intro has
      exact covered symbol address
        ((spread symbol address).mp ⟨access, found, has⟩)
    · rintro ⟨call, member, index, inside⟩
      have declared : call.declaration ∈
          calls.map DepinfoCall.declaration :=
        List.mem_map_of_mem member
      obtain ⟨other, same, has⟩ := (spread symbol address).mpr
        (spreadsTo_of_mem declared
          ((call.symbolIndex_declaration symbol).mpr index) inside)
      cases found.symm.trans same
      exact has

/-- A strong access over `[start, stop)` with a symbol. -/
def symbolAccess (symbol : Int) (start stop : Nat) : DepinfoCall where
  type := .readwrite
  weak := false
  region := ⟨start, stop⟩
  symbolIndex := symbol

/-- Calls of one type that is no reduction do not conflict. -/
theorem not_haveConflict_of_readwrite {calls : List DepinfoCall}
    (plain : ∀ call ∈ calls, call.type = .readwrite) :
    ¬ HaveConflict (calls.map DepinfoCall.declaration) := by
  rintro ⟨first, isFirst, second, isSecond, -, conflicts⟩
  obtain ⟨call, member, rfl⟩ := List.mem_map.mp isFirst
  obtain ⟨other, otherMember, rfl⟩ := List.mem_map.mp isSecond
  have isPlain : call.declaration.type = .readwrite := plain call member
  have isOther : other.declaration.type = .readwrite :=
    plain other otherMember
  simp [AccessDeclaration.Conflicts, isPlain, isOther] at conflicts

-- The bitset has no place for the symbol.
example : DepinfoCall.registerAll 1 [symbolAccess 64 0 8] = none := by
  decide

end Nanos6
