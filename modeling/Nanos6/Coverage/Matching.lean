import Nanos6.Coverage.Registration

/-!
# Matching an access keeps the coverage

One lemma for each way in which the matching of an access goes on: over an
entry of the bottom map, over a region that the parent does not cover, over an
access of the parent that gets its initial fragment, and at the end, when the
access of the child enters the bottom map.
-/

namespace Nanos6

open Foundation

/-- Over a region outside of the parent only the access of the child changes. -/
theorem restated_matchUncovered {links : TaskId → Prop} {system : System}
    (accounted : Accounted system) {task : TaskId} {progress : LinkProgress}
    {uncovered : DataAccessRegion} {rest : List Work}
    (positive : uncovered.start < uncovered.stop)
    (clean : (matchUncovered system task progress uncovered
      rest).assertionFailed = false) :
    Restated links system (matchUncovered system task progress uncovered rest) ∧
      ∃ matched : LinkProgress,
        SetsWork system task
          (matchUncovered system task progress uncovered rest)
          (.replaceMatching matched :: rest) ∧
        matched.region = progress.region ∧
        matched.remaining.stop = progress.remaining.stop ∧
        matched.parentAccessType = progress.parentAccessType ∧
        uncovered.start ≤ matched.remaining.start ∧
        matched.remaining.start ≤ uncovered.stop := by
  unfold matchUncovered at clean ⊢
  dsimp only at clean ⊢
  generalize chosen :
    (if (progress.isReduction && !progress.hasAllocatedReductionInfo) = true
      then allocateReductionInfo system task progress else system) =
        start at clean ⊢
  have allocates : start.assertionFailed = false → Restated links system start := by
    rw [← chosen]
    split
    · exact restated_allocateReductionInfo accounted
    · exact fun _ => .refl
  have accountedStart : Accounted start := by
    rw [← chosen]
    split
    · exact accounted.allocateReductionInfo task progress
    · exact accounted
  have control : start.control = system.control := by
    rw [← chosen]
    split
    · exact control_allocateReductionInfo system task progress
    · rfl
  cases found : ((start.task task).objects .accesses).firstIn
      uncovered.start uncovered.stop with
  | none =>
      rw [found] at clean
      dsimp only at clean ⊢
      refine ⟨(allocates clean).setWork task _, _,
        setsWork_setWork system task control _, rfl, rfl, rfl, ?_, ?_⟩
      · exact Nat.le_of_lt positive
      · exact Nat.le_refl _
  | some piece =>
      rw [found] at clean
      dsimp only at clean ⊢
      obtain ⟨member, meets, -⟩ := IntervalMap.firstIn_eq_some _ found
      have asserted : (start.assertionFailed || _ || _) = false := clean
      simp only [Bool.or_eq_false_iff] at asserted
      have cleanStart := asserted.1.1
      refine ⟨Restated.setWork ((allocates cleanStart).adds
          (accountedStart cleanStart task) member meets
          Setter.adds_satisfyLocally Setter.keepsShape_satisfyLocally clean
          fun isTaskwait => by cases isTaskwait) task _, _,
        setsWork_setWork system task ?_ _, rfl, rfl, rfl, ?_, ?_⟩
      · rw [System.control_changeObject, control]
      · simp only [Interval.Meets, Interval.Nonempty, Interval.inter,
          LinkProgress.advance] at meets ⊢
        omega
      · simp only [Interval.inter, LinkProgress.advance]
        omega

namespace Covered

variable {system next : System}

/-- A region that neither the bottom map nor the accesses of the parent
cover. -/
theorem matchUncovered (covered : Covered system)
    (accounted : Accounted system) {child parent : TaskId}
    {progress : LinkProgress} {rest : List Work}
    (working :
      (system.task child).work = .replaceMatching progress :: rest)
    (parentIs : (system.task child).parent = some parent)
    {uncovered : DataAccessRegion}
    (start : uncovered.start = progress.remaining.start)
    (positive : uncovered.start < uncovered.stop)
    (stop : uncovered.stop ≤ progress.remaining.stop)
    (free : ∀ address ∈ uncovered,
      ((system.task parent).footprint address).entry = none)
    (outside : ∀ address ∈ uncovered,
      ((system.task parent).footprint address).accessType = none)
    (clean : (Nanos6.matchUncovered system child progress uncovered
      rest).assertionFailed = false) :
    Covered
      (Nanos6.matchUncovered system child progress uncovered rest) := by
  have linking :
      Work.linkProgress (system.task child).work = some progress := by
    rw [working]
    rfl
  have fits := covered.fits child parent progress parentIs linking
  obtain ⟨restated, matched, sets, region, matchedStop, type, above, below⟩ :
      Restated (fun _ => False) system _ ∧ _ :=
    restated_matchUncovered accounted positive clean
  rw [start] at above
  have here : progress.remaining.start ∈ uncovered := by
    rw [← start]
    exact ⟨Nat.le_refl _, positive⟩
  -- The region of the child is outside, so no type has been recorded.
  have untyped : progress.parentAccessType = .noAccess := by
    rcases fits.type with ⟨found, -, same, -⟩ | ⟨-, untyped⟩
    · have inRegion : progress.remaining.start ∈ progress.region := by
        refine ⟨fits.above, ?_⟩
        rw [← fits.stop, ← start]
        exact Nat.lt_of_lt_of_le positive stop
      have typed := same _ inRegion
      rw [outside _ here] at typed
      cases typed
    · exact untyped
  refine covered.opens working parentIs sets region above ?_
    (fun task part => restated.inside)
    (fun task address => (restated.erodes task address).accessType)
    (fun task address =>
      (covered.aligned task address).erodes (restated.erodes task address))
    (fun task address =>
      (covered.rooted task address).erodes (restated.erodes task address))
    (fun task address mapped _ =>
      mapped.erodes (restated.erodes task address))
    (fun task address opened =>
      opened.erodes (restated.erodes task address)) ?_
  · refine fits.advance region
      (congrArg (Interval.mk matched.remaining.start) matchedStop) above
      (Nat.le_trans below stop) ?_ ?_
    · rw [← start]
      exact Nat.lt_of_lt_of_le positive stop
    · rw [type, untyped, outside _ here]
      rfl
  · intro address low high
    have inside : address ∈ uncovered := by
      rw [Interval.mem_iff, start]
      exact ⟨low, Nat.lt_of_lt_of_le high below⟩
    refine Footprint.Opened.erodes ⟨free address inside, ?_⟩
      (restated.erodes parent address)
    have absent := outside address inside
    unfold Footprint.accessType at absent
    rw [Option.map_eq_none_iff] at absent
    rw [absent]
    trivial

end Covered

/-! ## Initial fragments -/

/-- The entries that an initial fragment leaves beside the region of the
child. -/
theorem lookup_insertExcludedEntries
    {bottomMap : IntervalMap BottomMapEntry}
    {superaccess subregion : DataAccessRegion} (entry : BottomMapEntry)
    (start : superaccess.start ≤ subregion.start)
    (meets : superaccess.Meets subregion)
    (free : ∀ address ∈ superaccess, bottomMap.lookup address = none)
    (address : Nat) :
    (insertExcludedEntries bottomMap superaccess subregion entry).lookup
        address =
      if address ∈ superaccess ∧ address ∉ subregion then some entry
      else bottomMap.lookup address := by
  simp only [Interval.Meets, Interval.Nonempty, Interval.inter] at meets
  have left :
      ∀ address,
        (if superaccess.start < subregion.start then
          bottomMap.insert ⟨superaccess.start, subregion.start⟩ entry
        else bottomMap).lookup address =
          if superaccess.start ≤ address ∧ address < subregion.start then
            some entry
          else bottomMap.lookup address := by
    intro address
    split
    · rename_i positive
      rw [IntervalMap.lookup_insert]
      · rfl
      · refine IntervalMap.fits_of_lookup _ positive fun other inside => ?_
        simp only [Interval.mem_iff] at inside
        exact free other ⟨inside.1, by omega⟩
    · rename_i empty
      rw [if_neg (by omega)]
  unfold insertExcludedEntries
  dsimp only
  generalize (if superaccess.start < subregion.start then
    bottomMap.insert ⟨superaccess.start, subregion.start⟩ entry
    else bottomMap) = withLeft at left ⊢
  simp only [Interval.mem_iff]
  split
  · rename_i positive
    rw [IntervalMap.lookup_insert, left]
    · simp only [Interval.mem_iff]
      by_cases right : subregion.stop ≤ address ∧ address < superaccess.stop
      · rw [if_pos right, if_pos (by omega)]
      · rw [if_neg right]
        by_cases inLeft :
            superaccess.start ≤ address ∧ address < subregion.start
        · rw [if_pos inLeft, if_pos (by omega)]
        · rw [if_neg inLeft, if_neg (by omega)]
    · refine IntervalMap.fits_of_lookup _ positive fun other inside => ?_
      simp only [Interval.mem_iff] at inside
      rw [left, if_neg (by omega)]
      exact free other ⟨by omega, by omega⟩
  · rename_i empty
    rw [left]
    by_cases inLeft :
        superaccess.start ≤ address ∧ address < subregion.start
    · rw [if_pos inLeft, if_pos (by omega)]
    · rw [if_neg inLeft, if_neg (by omega)]

/-- The bytes of an access that gets its initial fragment. -/
theorem footprint_createInitialFragment {system : System}
    {owner task : TaskId} {superaccess : Piece DataAccess}
    {subregion : DataAccessRegion}
    (member : superaccess ∈ ((system.task task).objects .accesses).pieces)
    (start : superaccess.interval.start ≤ subregion.start)
    (meets : superaccess.interval.Meets subregion)
    (free : ∀ address ∈ superaccess.interval,
      ((system.task task).footprint address).entry = none)
    (clean : (createInitialFragment system owner task superaccess
      subregion).assertionFailed = false) (other : TaskId) (address : Nat) :
    ((createInitialFragment system owner task superaccess subregion).task
        other).footprint address =
      if other = task ∧ address ∈ superaccess.interval then
        { access := some (superaccess.value.type, true)
          hasFragment := true
          hasTaskwait := ((system.task task).footprint address).hasTaskwait
          entry :=
            if address ∈ subregion then none
            else some ⟨⟨task, .fragment⟩, superaccess.value.type⟩ }
      else (system.task other).footprint address := by
  have asserted :
      (system.assertionFailed ||
        !decide (((system.task task).objects .accessFragments).Fits
          superaccess.interval) ||
        superaccess.value.hasSubaccesses) = false :=
    clean
  simp only [Bool.or_eq_false_iff, Bool.not_eq_false', decide_eq_true_eq]
    at asserted
  have fits := asserted.1.2
  rw [task_createInitialFragment]
  by_cases same : other = task
  case neg => rw [if_neg same, if_neg fun both => same both.1]
  subst same
  rw [if_pos rfl]
  simp only [Task.footprint, Function.update_self, ne_eq, reduceCtorEq,
    not_false_eq_true, Function.update_of_ne, IntervalMap.lookup_insert _ fits,
    IntervalMap.lookup_replace _ member,
    lookup_insertExcludedEntries _ start meets free, true_and, and_self]
  by_cases inside : address ∈ superaccess.interval
  · rw [if_pos inside, if_pos inside, if_pos inside]
    by_cases within : address ∈ subregion
    · have absent :
          (system.task other).subaccessBottomMap.lookup address = none :=
        free address inside
      simp [inside, within, absent]
    · simp [inside, within]
  · rw [if_neg inside, if_neg inside, if_neg inside]
    simp [inside]

theorem Kept.createInitialFragment {system : System} (kept : Kept system)
    {owner task : TaskId} {superaccess : Piece DataAccess}
    (member : superaccess ∈ ((system.task task).objects .accesses).pieces)
    (subregion : DataAccessRegion) :
    Kept (Nanos6.createInitialFragment system owner task superaccess
      subregion) := by
  have created : Kept (system.createObject owner task .accessFragments
      superaccess.interval {} (initialFragment superaccess.value)) :=
    kept.createObject rfl fun isTaskwait => by cases isTaskwait
  have taskIs := task_createInitialFragment system owner task superaccess
    subregion
  refine created.congr ?_ ?_ ?_ fun _ updates => updates
  · intro other piece pieceMember
    rw [taskIs] at pieceMember
    rw [System.task_createObject]
    split at pieceMember
    · rename_i same
      rw [if_pos same]
      simpa using pieceMember
    · rename_i differ
      rw [if_neg differ]
      exact pieceMember
  · intro other map piece pieceMember hasSubaccesses
    by_contra notAccesses
    refine notAccesses (created.subaccesses other map piece ?_ hasSubaccesses)
    rw [taskIs] at pieceMember
    rw [System.task_createObject]
    split at pieceMember
    · rename_i same
      rw [if_pos same]
      dsimp only at pieceMember ⊢
      rwa [Function.update_of_ne notAccesses] at pieceMember
    · rename_i differ
      rw [if_neg differ]
      exact pieceMember
  · intro other before _
    rw [System.task_createObject] at before
    rw [taskIs]
    split
    · simp only [Task.hasAccesses, Bool.not_eq_true',
        List.isEmpty_eq_false_iff, Function.update_self]
      exact IntervalMap.replace_ne_nil _ member
        (Interval.meets_self (IntervalMap.nonempty _ superaccess member)) _
    · rename_i differ
      rw [if_neg differ] at before
      exact before

namespace Covered

variable {system next : System}

/-- An access of the parent without subaccesses. -/
theorem matchSuperaccess (covered : Covered system)
    (accounted : Accounted system) (enrolled : Enrolled system)
    (orderly : Orderly system) {child parent : TaskId}
    (differ : parent ≠ child) {progress : LinkProgress} {rest : List Work}
    (working :
      (system.task child).work = .replaceMatching progress :: rest)
    (parentIs : (system.task child).parent = some parent)
    {superaccess : Piece DataAccess} {missing : DataAccessRegion}
    (member : superaccess ∈ ((system.task parent).objects .accesses).pieces)
    (start : superaccess.interval.start ≤ missing.start)
    (meets : superaccess.interval.Meets missing)
    (missingStart : missing.start = progress.remaining.start)
    (missingStop : missing.stop ≤ progress.remaining.stop)
    (clean : (Nanos6.matchSuperaccess system child parent progress superaccess
      missing rest).assertionFailed = false) :
    Covered
      (Nanos6.matchSuperaccess system child parent progress superaccess
        missing rest) := by
  have linking :
      Work.linkProgress (system.task child).work = some progress := by
    rw [working]
    rfl
  have awake : (system.task parent).status.waits = false := by
    rw [orderly.running_of_linkProgress enrolled parentIs linking]
    rfl
  have fits := covered.fits child parent progress parentIs linking
  have cleanCreated := assertionFailed_linkPrevious clean
  have plain : superaccess.value.hasSubaccesses = false := by
    have asserted : (_ || superaccess.value.hasSubaccesses) = false :=
      cleanCreated
    simp only [Bool.or_eq_false_iff] at asserted
    exact asserted.2
  have shape : ∀ address ∈ superaccess.interval,
      ((system.task parent).footprint address).access =
        some (superaccess.value.type, false) := by
    intro address inside
    simp only [Task.footprint, IntervalMap.lookup_of_mem _ member inside,
      Option.map_some, plain]
  -- No byte of the access is open: it would have subaccesses.
  have untouched : ∀ address ∈ superaccess.interval,
      ((system.task parent).footprint address).entry = none ∧
        ((system.task parent).footprint address).hasTaskwait = false := by
    intro address inside
    have closed : ¬ system.OpenAt parent address := by
      intro isOpen
      have opened := (covered.opened parent address isOpen).2
      rw [shape address inside] at opened
      cases opened.1
    have mapped := covered.mapped parent address awake closed
    unfold Footprint.Mapped at mapped
    rw [shape address inside] at mapped
    exact mapped
  have footprint :=
    footprint_createInitialFragment member start meets
      (fun address inside => (untouched address inside).1) cleanCreated
  have unmaps : Unmaps (fun _ => False) _ _ _ _ := unmaps_linkPrevious
    (accounted.createInitialFragment child parent member missing) differ
    differ (Accounted.mem_createInitialFragment cleanCreated) meets (by simp)
    clean
  have sets := (setsWork_linkPrevious
    (createInitialFragment system child parent superaccess missing) child
    parent progress .accessFragments parent
    ⟨superaccess.interval, initialFragment superaccess.value⟩ missing
    superaccess.value.type rest).of_control
      (control_createInitialFragment system child parent superaccess missing)
  obtain ⟨sameRegion, sameRemaining⟩ :=
    allocateForPrevious_progress
      (createInitialFragment system child parent superaccess missing) child
      progress (initialFragment superaccess.value)
  simp only [Interval.Meets, Interval.Nonempty] at meets
  have reachedBelow : (superaccess.interval.inter missing).stop ≤
      min superaccess.interval.stop missing.stop := Nat.le_refl _
  have reachedAbove : progress.remaining.start <
      (superaccess.interval.inter missing).stop := by
    simp only [Interval.inter] at meets ⊢
    omega
  have here : progress.remaining.start ∈ superaccess.interval := by
    rw [Interval.mem_iff, ← missingStart]
    simp only [Interval.inter] at meets
    omega
  have proper : superaccess.value.type ≠ .noAccess := by
    have inRegion : progress.remaining.start ∈ progress.region := by
      refine ⟨fits.above, ?_⟩
      rw [← fits.stop]
      omega
    have typed : ((system.task parent).footprint
        progress.remaining.start).accessType =
          some superaccess.value.type := by
      rw [Footprint.accessType, shape _ here]
      rfl
    rcases fits.type with ⟨found, proper, same, -⟩ | ⟨outside, -⟩
    · rw [same _ inRegion] at typed
      rw [← Option.some.inj typed]
      exact proper
    · rw [outside _ inRegion] at typed
      cases typed
  have isOver : ∀ address ∈ superaccess.interval,
      ((Nanos6.matchSuperaccess system child parent progress superaccess
        missing rest).task parent).footprint address =
        { access := some (superaccess.value.type, true)
          hasFragment := true
          hasTaskwait := false
          entry :=
            if address ∈ missing then none
            else some ⟨⟨parent, .fragment⟩, superaccess.value.type⟩ } := by
    intro address inside
    obtain ⟨middle, erodes, final⟩ := unmaps.footprint parent address
    rw [footprint, if_pos ⟨rfl, inside⟩,
      (untouched address inside).2] at erodes
    have same := erodes.eq_of_hasTaskwait rfl
    subst same
    refine final.trans ?_
    split
    · rename_i within
      have inMissing : address ∈ missing := by
        refine ⟨within.2.1, Nat.lt_of_lt_of_le within.2.2 ?_⟩
        exact Nat.min_le_right _ _
      rw [if_pos inMissing]
    · rfl
  have beside : ∀ task address,
      ¬ (task = parent ∧ address ∈ superaccess.interval) →
      Footprint.Erodes ((system.task task).footprint address)
        (((Nanos6.matchSuperaccess system child parent progress superaccess
          missing rest).task task).footprint address) := by
    intro task address away
    obtain ⟨middle, erodes, final⟩ := unmaps.footprint task address
    rw [footprint, if_neg away] at erodes
    have kept : ((Nanos6.matchSuperaccess system child parent progress
        superaccess missing rest).task task).footprint address = middle := by
      refine final.trans (if_neg fun both => away ⟨both.1, ?_⟩)
      refine ⟨Nat.le_trans start both.2.1, ?_⟩
      exact Nat.lt_of_lt_of_le both.2.2 (Nat.min_le_left _ _)
    rw [kept]
    exact erodes
  refine covered.opens working parentIs sets sameRegion
    (Nat.le_of_lt reachedAbove) ?_ ?_ ?_ ?_ ?_ ?_ ?_ ?_
  · refine fits.advance sameRegion ?_ (Nat.le_of_lt reachedAbove) (by omega)
      (by omega) ?_
    · simp only [LinkProgress.advance, sameRemaining]
    · rw [Footprint.accessType, shape _ here]
      rfl
  · intro task part partMember
    obtain ⟨middle, middleMember, below, above⟩ := unmaps.inside partMember
    rw [task_createInitialFragment] at middleMember
    split at middleMember
    · rename_i same
      subst same
      dsimp only at middleMember
      rw [Function.update_self] at middleMember
      obtain ⟨old, oldMember, oldBelow, oldAbove⟩ :=
        IntervalMap.inside_rewritePieces _ _ middleMember
      exact ⟨old, oldMember, Nat.le_trans oldBelow below,
        Nat.le_trans above oldAbove⟩
    · exact ⟨middle, middleMember, below, above⟩
  · intro task address
    by_cases inside : task = parent ∧ address ∈ superaccess.interval
    · obtain ⟨rfl, inside⟩ := inside
      rw [isOver address inside, Footprint.accessType, Footprint.accessType,
        shape address inside]
      rfl
    · exact (beside task address inside).accessType
  · intro task address
    by_cases inside : task = parent ∧ address ∈ superaccess.interval
    · obtain ⟨rfl, inside⟩ := inside
      rw [isOver address inside]
      exact ⟨rfl, proper⟩
    · exact (covered.aligned task address).erodes (beside task address inside)
  · intro task address
    by_cases inside : task = parent ∧ address ∈ superaccess.interval
    · obtain ⟨rfl, inside⟩ := inside
      rw [isOver address inside]
      intro entry found isTaskwait
      dsimp only at found
      split at found
      · cases found
      · cases found
        cases isTaskwait
    · exact (covered.rooted task address).erodes (beside task address inside)
  · intro task address mapped beyond
    by_cases inside : task = parent ∧ address ∈ superaccess.interval
    · obtain ⟨rfl, inside⟩ := inside
      have outside : address ∉ missing := by
        intro within
        have reached := beyond rfl (by rw [← missingStart]; exact within.1)
        simp only [LinkProgress.advance, Interval.inter] at reached
        simp only [Interval.mem_iff] at within inside
        omega
      rw [isOver address inside, if_neg outside]
      exact ⟨rfl, rfl⟩
    · exact mapped.erodes (beside task address inside)
  · intro task address opened
    by_cases inside : task = parent ∧ address ∈ superaccess.interval
    · obtain ⟨rfl, inside⟩ := inside
      have hasSubaccesses := opened.2
      rw [shape address inside] at hasSubaccesses
      cases hasSubaccesses.1
    · exact opened.erodes (beside task address inside)
  · intro address above below
    have inside : address ∈ superaccess.interval := by
      simp only [LinkProgress.advance, Interval.inter] at below
      simp only [Interval.mem_iff] at here ⊢
      omega
    have within : address ∈ missing := by
      simp only [LinkProgress.advance, Interval.inter] at below
      simp only [Interval.mem_iff]
      omega
    rw [isOver address inside, if_pos within]
    exact ⟨rfl, rfl, rfl⟩

/-- A region over which the bottom map of the parent has no entry. -/
theorem matchMissing (covered : Covered system)
    (accounted : Accounted system) (enrolled : Enrolled system)
    (orderly : Orderly system) {child parent : TaskId}
    (differ : parent ≠ child) {progress : LinkProgress} {rest : List Work}
    (working :
      (system.task child).work = .replaceMatching progress :: rest)
    (parentIs : (system.task child).parent = some parent)
    {missing : DataAccessRegion}
    (start : missing.start = progress.remaining.start)
    (positive : missing.start < missing.stop)
    (stop : missing.stop ≤ progress.remaining.stop)
    (free : ∀ address ∈ missing,
      ((system.task parent).footprint address).entry = none)
    (clean : (Nanos6.matchMissing system child parent progress missing
      rest).assertionFailed = false) :
    Covered
      (Nanos6.matchMissing system child parent progress missing rest) := by
  have linking :
      Work.linkProgress (system.task child).work = some progress := by
    rw [working]
    rfl
  have fits := covered.fits child parent progress parentIs linking
  have within : ∀ address ∈ missing, address ∈ progress.region := by
    intro address inside
    have above := fits.above
    have sameStop := fits.stop
    simp only [Interval.mem_iff] at *
    omega
  have accessType : ∀ address,
      ((system.task parent).footprint address).accessType =
        (((system.task parent).objects .accesses).lookup address).map
          (·.type) := by
    intro address
    simp only [Footprint.accessType, Task.footprint, Option.map_map]
    rfl
  revert clean
  unfold Nanos6.matchMissing
  split
  · rename_i absent
    refine covered.matchUncovered accounted working parentIs start positive
      stop free fun address inside => ?_
    rw [accessType, IntervalMap.firstIn_eq_none _ absent inside.1 inside.2]
    rfl
  · rename_i superaccess found
    obtain ⟨member, meets, before⟩ := IntervalMap.firstIn_eq_some _ found
    split
    · rename_i starts
      exact covered.matchSuperaccess accounted enrolled orderly differ working
        parentIs member starts meets start stop
    · -- The access of the child would be partly inside of the parent.
      rename_i later
      simp only [Interval.Meets, Interval.Nonempty, Interval.inter] at meets
      have outside : missing.start ∈ missing := ⟨Nat.le_refl _, positive⟩
      have inside : superaccess.interval.start ∈ missing :=
        ⟨by omega, by omega⟩
      have absent : ((system.task parent).footprint
          missing.start).accessType = none := by
        rw [accessType, before _ (Nat.le_refl _) positive (by omega)]
        rfl
      have present : ((system.task parent).footprint
          superaccess.interval.start).accessType =
            some superaccess.value.type := by
        rw [accessType, IntervalMap.lookup_of_mem _ member
          ⟨Nat.le_refl _, by omega⟩]
        rfl
      rcases fits.type with ⟨type, -, same, -⟩ | ⟨none, -⟩
      · rw [same _ (within _ outside)] at absent
        cases absent
      · rw [none _ (within _ inside)] at present
        cases present

/-- The access of the child enters the bottom map of its parent. -/
theorem enters (covered : Covered system) (enrolled : Enrolled system)
    (orderly : Orderly system) {child parent : TaskId}
    (differ : parent ≠ child) {progress : LinkProgress} {rest : List Work}
    (working :
      (system.task child).work = .replaceMatching progress :: rest)
    (parentIs : (system.task child).parent = some parent)
    (done : progress.remaining.stop ≤ progress.remaining.start) :
    Covered
      ((system.modifyTask parent fun current =>
        { current with
          subaccessBottomMap :=
            current.subaccessBottomMap.insert progress.region
              ⟨⟨child, .access⟩, progress.parentAccessType⟩ }).setWork child
        rest) := by
  have linking :
      Work.linkProgress (system.task child).work = some progress := by
    rw [working]
    rfl
  have fits := covered.fits child parent progress parentIs linking
  have aloneBefore := covered.alone child
  rw [working] at aloneBefore
  have linksNoMore := Work.linkProgress_of_alone aloneBefore
  have openHere : ∀ address, address ∈ progress.region →
      system.OpenAt parent address := by
    intro address inside
    refine ⟨child, progress, parentIs, linking, inside.1, ?_⟩
    have stop := fits.stop
    simp only [Interval.mem_iff] at inside
    omega
  have onlyHere : ∀ address, system.OpenAt parent address →
      address ∈ progress.region := by
    rintro address ⟨other, found, otherParent, otherLinks, above, below⟩
    have same :=
      orderly.eq_of_linkProgress enrolled otherParent parentIs otherLinks
        linking
    subst same
    rw [linking] at otherLinks
    obtain rfl := Option.some.inj otherLinks
    exact ⟨above, Nat.lt_of_lt_of_le below fits.below⟩
  generalize entered : System.setWork _ child rest = next
  have sets : SetsWork system child next rest := by
    rw [← entered]
    exact setsWork_setWork system child
      (System.control_modifyTask_of_eq system parent rfl) rest
  have objects : ∀ task,
      (next.task task).objects = (system.task task).objects := by
    intro task
    rw [← entered]
    simp only [System.setWork, System.task_modifyTask]
    split
    · rename_i same
      rw [same, if_neg differ.symm]
    · split
      · rename_i same
        rw [same]
      · rfl
  have footprint : ∀ task address,
      (next.task task).footprint address =
        if task = parent ∧ address ∈ progress.region then
          { (system.task parent).footprint address with
            entry := some ⟨⟨child, .access⟩, progress.parentAccessType⟩ }
        else (system.task task).footprint address := by
    intro task address
    have bottomMap : (next.task task).subaccessBottomMap =
        if task = parent then
          (system.task parent).subaccessBottomMap.insert progress.region
            ⟨⟨child, .access⟩, progress.parentAccessType⟩
        else (system.task task).subaccessBottomMap := by
      rw [← entered]
      simp only [System.setWork, System.task_modifyTask]
      split
      · rename_i same
        rw [same, if_neg differ.symm, if_neg differ.symm]
      · by_cases same : task = parent
        · rw [if_pos same, if_pos same]
        · rw [if_neg same, if_neg same]
    simp only [Task.footprint, objects, bottomMap]
    by_cases same : task = parent
    · subst same
      rw [if_pos rfl, IntervalMap.lookup_insert]
      · by_cases inside : address ∈ progress.region
        · rw [if_pos inside, if_pos ⟨rfl, inside⟩]
        · rw [if_neg inside, if_neg fun both => inside both.2]
      · exact IntervalMap.fits_of_lookup _ fits.positive fun other within =>
          (covered.opened task other (openHere other within)).1
    · rw [if_neg same, if_neg fun both => same both.1]
  have types : ∀ task address,
      ((next.task task).footprint address).accessType =
        ((system.task task).footprint address).accessType := by
    intro task address
    rw [footprint]
    split
    · rename_i both
      rw [both.1]
      rfl
    · rfl
  have links : ∀ other found,
      Work.linkProgress (next.task other).work = some found →
      other ≠ child ∧
        Work.linkProgress (system.task other).work = some found := by
    intro other found linksNow
    rw [sets.work] at linksNow
    by_cases same : other = child
    · rw [if_pos same, linksNoMore] at linksNow
      cases linksNow
    · rw [if_neg same] at linksNow
      exact ⟨same, linksNow⟩
  refine ⟨?_, ?_, ?_, ?_, ?_, ?_, ?_⟩
  · intro task address
    rw [footprint]
    split
    · exact covered.aligned parent address
    · exact covered.aligned task address
  · intro task address
    rw [footprint]
    split
    · intro entry found isTaskwait
      cases found
      cases isTaskwait
    · exact covered.rooted task address
  · intro task address awake closed
    rw [sets.status] at awake
    rw [footprint]
    split
    · rename_i both
      have opened := covered.opened parent address (openHere address both.2)
      have typed := opened.2
      unfold Footprint.Mapped
      dsimp only
      rcases fits.type with ⟨type, -, same, recorded⟩ | ⟨outside, untyped⟩
      · have here := same address both.2
        unfold Footprint.accessType at here
        cases access : ((system.task parent).footprint address).access with
        | none =>
            rw [access] at here
            cases here
        | some shape =>
            rw [access] at here typed
            obtain ⟨found, hasSubaccesses⟩ := shape
            obtain rfl := Option.some.inj here
            dsimp only at typed ⊢
            rw [typed.1]
            refine ⟨?_, typed.2⟩
            rw [recorded]
            · rfl
            · have positive := fits.positive
              have stop := fits.stop
              simp only [Interval.Nonempty] at positive
              omega
      · have here := outside address both.2
        unfold Footprint.accessType at here
        rw [Option.map_eq_none_iff] at here
        rw [here]
        intro entry found
        cases found
        exact untyped
    · rename_i away
      refine covered.mapped task address awake ?_
      intro isOpen
      by_cases same : task = parent
      · subst same
        exact away ⟨rfl, onlyHere address isOpen⟩
      · obtain ⟨other, found, otherParent, otherLinks, above, below⟩ := isOpen
        have otherDiffers : other ≠ child := by
          intro equal
          rw [equal, parentIs] at otherParent
          exact same (Option.some.inj otherParent).symm
        refine closed ⟨other, found, ?_, ?_, above, below⟩
        · rw [sets.parent]
          exact otherParent
        · rw [sets.work, if_neg otherDiffers]
          exact otherLinks
  · rintro task address ⟨other, found, otherParent, otherLinks, above, below⟩
    obtain ⟨otherDiffers, before⟩ := links other found otherLinks
    rw [sets.parent] at otherParent
    have taskDiffers : task ≠ parent := by
      intro same
      subst same
      exact otherDiffers (orderly.eq_of_linkProgress enrolled otherParent
        parentIs before linking)
    rw [footprint, if_neg fun both => taskDiffers both.1]
    exact covered.opened task address
      ⟨other, found, otherParent, before, above, below⟩
  · intro other parentTask status otherParent part member
    rw [sets.status] at status
    rw [sets.parent] at otherParent
    rw [objects] at member
    exact (covered.nested other parentTask status otherParent part
      member).mono (types parentTask) (Nat.le_refl _) (Nat.le_refl _)
  · intro other parentTask found otherParent otherLinks
    rw [sets.parent] at otherParent
    exact (covered.fits other parentTask found otherParent
      (links other found otherLinks).2).congr (types parentTask)
  · intro task
    rw [sets.work]
    split
    · exact fun loop member => aloneBefore loop (List.mem_of_mem_tail member)
    · exact covered.alone task

theorem replaceMatching (covered : Covered system)
    (accounted : Accounted system) (enrolled : Enrolled system)
    (orderly : Orderly system) {child parent : TaskId}
    (differ : parent ≠ child) {progress : LinkProgress} {rest : List Work}
    (working :
      (system.task child).work = .replaceMatching progress :: rest)
    (parentIs : (system.task child).parent = some parent)
    (meetsObjects : system.meetsObjects child = true)
    (matched : replaceMatchingInBottomMapLinkAndPropagate system child parent
      progress rest = some next)
    (clean : next.assertionFailed = false) : Covered next := by
  unfold replaceMatchingInBottomMapLinkAndPropagate at matched
  dsimp only at matched
  split at matched
  · rename_i done
    cases matched
    exact covered.enters enrolled orderly differ working parentIs done
  · rename_i more
    have positive : progress.remaining.start < progress.remaining.stop :=
      Nat.lt_of_not_le more
    split at matched
    · rename_i absent
      cases matched
      exact covered.matchMissing accounted enrolled orderly differ working
        parentIs rfl positive (Nat.le_refl _)
        (fun _ inside =>
          IntervalMap.firstIn_eq_none _ absent inside.1 inside.2) clean
    · rename_i entry found
      obtain ⟨member, meets, before⟩ := IntervalMap.firstIn_eq_some _ found
      split at matched
      · rename_i starts
        refine covered.matchEntry accounted enrolled orderly differ working
          parentIs found starts ?_ matched clean
        exact firstIn_of_meetsObjects working parentIs meetsObjects member
          meets
      · rename_i later
        cases matched
        simp only [Interval.Meets, Interval.Nonempty, Interval.inter] at meets
        exact covered.matchMissing accounted enrolled orderly differ working
          parentIs rfl (by dsimp only; omega) (by dsimp only; omega)
          (fun address inside =>
            before address inside.1 (by
              simp only [Interval.mem_iff] at inside
              omega) inside.2) clean

/-- The matching of an access begins; no byte is open yet. -/
theorem begins (covered : Covered system) {child : TaskId}
    {progress : LinkProgress} {rest : List Work}
    (idle : Work.linkProgress (system.task child).work = none)
    (fresh : progress.remaining = progress.region)
    (fits : ∀ parent, (system.task child).parent = some parent →
      progress.Fits (system.task parent))
    (alone : Work.Alone (.replaceMatching progress :: rest)) :
    Covered (system.setWork child (.replaceMatching progress :: rest)) := by
  have sets := setsWork_setWork system child rfl
    (.replaceMatching progress :: rest)
  have links : ∀ other, other ≠ child →
      Work.linkProgress ((system.setWork child
        (.replaceMatching progress :: rest)).task other).work =
        Work.linkProgress (system.task other).work := by
    intro other differ
    rw [sets.work, if_neg differ]
  have linksNow : Work.linkProgress ((system.setWork child
      (.replaceMatching progress :: rest)).task child).work =
        some progress := by
    rw [sets.work, if_pos rfl]
    rfl
  have sameOpen : ∀ task address,
      (system.setWork child (.replaceMatching progress :: rest)).OpenAt task
        address ↔ system.OpenAt task address := by
    intro task address
    constructor
    · rintro ⟨other, found, otherParent, otherLinks, above, below⟩
      rw [sets.parent] at otherParent
      by_cases same : other = child
      · subst same
        rw [linksNow] at otherLinks
        obtain rfl := Option.some.inj otherLinks
        rw [fresh] at below
        exact absurd above (Nat.not_le.mpr below)
      · rw [links other same] at otherLinks
        exact ⟨other, found, otherParent, otherLinks, above, below⟩
    · rintro ⟨other, found, otherParent, otherLinks, above, below⟩
      have differ : other ≠ child := by
        intro same
        rw [same, idle] at otherLinks
        cases otherLinks
      refine ⟨other, found, ?_, ?_, above, below⟩
      · rw [sets.parent]
        exact otherParent
      · rw [links other differ]
        exact otherLinks
  have types : ∀ task address,
      (((system.setWork child (.replaceMatching progress :: rest)).task
        task).footprint address).accessType =
          ((system.task task).footprint address).accessType := by
    intro task address
    rw [System.footprint_setWork]
  refine ⟨?_, ?_, ?_, ?_, ?_, ?_, ?_⟩
  · intro task address
    rw [System.footprint_setWork]
    exact covered.aligned task address
  · intro task address
    rw [System.footprint_setWork]
    exact covered.rooted task address
  · intro task address awake closed
    rw [sets.status] at awake
    rw [sameOpen] at closed
    rw [System.footprint_setWork]
    exact covered.mapped task address awake closed
  · intro task address isOpen
    rw [sameOpen] at isOpen
    rw [System.footprint_setWork]
    exact covered.opened task address isOpen
  · intro other parent status otherParent part member
    rw [sets.status] at status
    rw [sets.parent] at otherParent
    rw [System.objects_setWork] at member
    exact (covered.nested other parent status otherParent part member).mono
      (types parent) (Nat.le_refl _) (Nat.le_refl _)
  · intro other parent found otherParent otherLinks
    rw [sets.parent] at otherParent
    by_cases same : other = child
    · subst same
      rw [linksNow] at otherLinks
      obtain rfl := Option.some.inj otherLinks
      exact (fits parent otherParent).congr (types parent)
    · rw [links other same] at otherLinks
      exact (covered.fits other parent found otherParent otherLinks).congr
        (types parent)
  · intro task
    rw [sets.work]
    split
    · exact alone
    · exact covered.alone task

/-- The next access of the child begins to be matched. -/
theorem linkTaskAccesses (covered : Covered system)
    (accounted : Accounted system) {child : TaskId} {low : Nat}
    {rest : List Work}
    (working :
      (system.task child).work = .linkTaskAccesses low :: rest)
    (registering : (system.task child).status = .registering)
    (clean : (Nanos6.linkTaskAccesses system child low
      rest).assertionFailed = false) :
    Covered (Nanos6.linkTaskAccesses system child low rest) := by
  have aloneBefore := covered.alone child
  rw [working] at aloneBefore
  have idle : Work.linkProgress (system.task child).work = none := by
    rw [working]
    rfl
  revert clean
  unfold Nanos6.linkTaskAccesses
  split
  · intro _
    refine covered.setWork ?_ ?_
    · rw [idle]
      exact Work.linkProgress_of_alone aloneBefore
    · exact fun loop member => aloneBefore loop (List.mem_of_mem_tail member)
  · rename_i piece found
    intro clean
    obtain ⟨member, -⟩ := IntervalMap.nextFrom_eq_some _ found
    have asserted : (system.assertionFailed || _ || _) = false := clean
    simp only [Bool.or_eq_false_iff] at asserted
    have restated : Restated (fun _ => False) system _ :=
      restated_register accounted registering member asserted.1.1
    have control := System.control_changeObject system child child .accesses
      piece piece.interval (Setter.setInBottomMap.andThen .setRegistered)
    have registered := covered.restated_of_control restated control
    refine registered.begins ?_ rfl ?_ ?_
    · rw [← idle]
      exact congrArg Work.linkProgress
        (congrArg Control.work (congrFun control child))
    · intro parent parentIs
      have parentBefore : (system.task child).parent = some parent := by
        rw [← parentIs]
        exact (congrArg Control.parent (congrFun control child)).symm
      have nests := covered.nested child parent registering parentBefore piece
        member
      refine LinkProgress.Fits.congr
        (?_ : LinkProgress.Fits _ (system.task parent))
        fun address => (restated.erodes parent address).accessType
      refine ⟨IntervalMap.nonempty _ piece member, Nat.le_refl _, ?_, rfl, ?_⟩
      · exact Nat.le_of_lt (IntervalMap.nonempty _ piece member)
      · rcases nests with ⟨type, proper, same⟩ | outside
        · refine Or.inl ⟨type, proper, same, fun started => ?_⟩
          exact absurd started (Nat.lt_irrefl _)
        · exact Or.inr ⟨outside, rfl⟩
    · intro loop inTail
      rcases List.mem_cons.mp inTail with rfl | inRest
      · intro progress same
        cases same
      · exact aloneBefore loop inRest

end Covered

end Nanos6
