import Nanos6.Scheduling.Possession
import Nanos6.Scheduling.Wakeups

/-!
# The order of priorities

The classes are kept by increasing key, and the key of a class is the negated
priority of its tasks, so the front of the first class is a task of the highest
priority.  A call locks its class before it releases the global lock, and
inserts its task afterwards: in between, the class may be empty.
-/

namespace Nanos6.Scheduling

open Foundation

namespace Priorities

/-! ## Classes -/

def Sorted (classes : List PriorityClass) : Prop :=
  classes.Pairwise fun first second => first.key < second.key

/-- A class is another one than the changed one, or the changed one, which may
have been created. -/
theorem withClass_cases {key : Int} {change : PriorityClass → PriorityClass}
    {classes : List PriorityClass} {priorityClass : PriorityClass}
    (sorted : Sorted classes)
    (member : priorityClass ∈ withClass key change classes) :
    (priorityClass ∈ classes ∧ priorityClass.key ≠ key) ∨
      ∃ old, old.key = key ∧ (old ∈ classes ∨ old = { key := key }) ∧
        priorityClass = change old := by
  induction classes with
  | nil =>
      have created := List.mem_singleton.mp member
      exact Or.inr ⟨{ key := key }, rfl, Or.inr rfl, created⟩
  | cons first rest inductionHypothesis =>
      obtain ⟨least, sortedRest⟩ := List.pairwise_cons.mp sorted
      unfold withClass at member
      split at member
      · rename_i below
        obtain created | later := List.mem_cons.mp member
        · exact Or.inr ⟨{ key := key }, rfl, Or.inr rfl, created⟩
        · refine Or.inl ⟨later, ?_⟩
          obtain rfl | inRest := List.mem_cons.mp later
          · exact (Int.ne_of_lt below).symm
          · exact (Int.ne_of_lt (Int.lt_trans below (least _ inRest))).symm
      · split at member
        · rename_i here
          obtain changed | later := List.mem_cons.mp member
          · exact Or.inr ⟨first, here.symm, Or.inl (List.mem_cons_self ..),
              changed⟩
          · refine Or.inl ⟨List.mem_cons_of_mem _ later, ?_⟩
            rw [here]
            exact (Int.ne_of_lt (least _ later)).symm
        · rename_i elsewhere
          obtain rfl | later := List.mem_cons.mp member
          · exact Or.inl ⟨List.mem_cons_self .., Ne.symm elsewhere⟩
          · obtain ⟨other, differ⟩ | ⟨old, isKey, origin, changed⟩ :=
              inductionHypothesis sortedRest later
            · exact Or.inl ⟨List.mem_cons_of_mem _ other, differ⟩
            · exact Or.inr ⟨old, isKey,
                origin.imp_left (List.mem_cons_of_mem _), changed⟩

theorem sorted_withClass {key : Int} {change : PriorityClass → PriorityClass}
    (same : ∀ priorityClass, (change priorityClass).key = priorityClass.key)
    {classes : List PriorityClass} (sorted : Sorted classes) :
    Sorted (withClass key change classes) := by
  induction classes with
  | nil => exact List.pairwise_singleton _ _
  | cons first rest inductionHypothesis =>
      obtain ⟨least, sortedRest⟩ := List.pairwise_cons.mp sorted
      unfold withClass
      split
      · rename_i below
        refine List.pairwise_cons.mpr ⟨?_, sorted⟩
        intro later member
        rw [same]
        obtain rfl | inRest := List.mem_cons.mp member
        · exact below
        · exact Int.lt_trans below (least later inRest)
      · split
        · refine List.pairwise_cons.mpr ⟨?_, sortedRest⟩
          intro later member
          rw [same]
          exact least later member
        · rename_i notBelow elsewhere
          have above : first.key < key := by omega
          refine List.pairwise_cons.mpr ⟨?_, inductionHypothesis sortedRest⟩
          intro later member
          obtain ⟨inRest, -⟩ | ⟨old, isKey, -, rfl⟩ :=
            withClass_cases sortedRest member
          · exact least later inRest
          · rw [same, isKey]
            exact above

theorem mem_queuedTasks {classes : List PriorityClass} {task : TaskId} :
    task ∈ queuedTasks classes ↔
      ∃ priorityClass ∈ classes, task ∈ priorityClass.queue :=
  List.mem_flatMap

theorem mem_push {front : Bool} {task other : TaskId}
    {priorityClass : PriorityClass} :
    other ∈ (priorityClass.push front task).queue ↔
      other = task ∨ other ∈ priorityClass.queue := by
  cases front with
  | true => exact List.mem_cons
  | false =>
      show other ∈ priorityClass.queue ++ [task] ↔ _
      rw [List.mem_append, List.mem_singleton, or_comm]

/-! ## What a choice does -/

/-- The classes without the front of the first one. -/
def popFront (first : PriorityClass) (others : List TaskId)
    (rest : List PriorityClass) : List PriorityClass :=
  if others.isEmpty then rest else { first with queue := others } :: rest

theorem mem_popFront {first priorityClass : PriorityClass}
    {others : List TaskId} {rest : List PriorityClass}
    (member : priorityClass ∈ popFront first others rest) :
    priorityClass ∈ rest ∨
      (others ≠ [] ∧ priorityClass = { first with queue := others }) := by
  unfold popFront at member
  split at member
  · exact Or.inl member
  · rename_i left
    obtain rfl | inRest := List.mem_cons.mp member
    · exact Or.inr ⟨by simpa using left, rfl⟩
    · exact Or.inl inRest

theorem sorted_popFront {first : PriorityClass} {others : List TaskId}
    {rest : List PriorityClass} (sorted : Sorted (first :: rest)) :
    Sorted (popFront first others rest) := by
  obtain ⟨least, sortedRest⟩ := List.pairwise_cons.mp sorted
  unfold popFront
  split
  · exact sortedRest
  · exact List.pairwise_cons.mpr ⟨least, sortedRest⟩

/-- The choice of `getReadyTask` and `requestPolling`, with the comparison that
decided it. -/
inductive Decides (system : System) (cpu : CPU) :
    System → Option TaskId → Prop
  | nothing : system.classes = [] → system.schedulerData cpu = none →
      Decides system cpu system none
  | alone {successor : TaskId} : system.classes = [] →
      system.schedulerData cpu = some successor →
      Decides system cpu
        { system with
          schedulerData := Function.update system.schedulerData cpu none }
        (some successor)
  | successor {successor front : TaskId} {others : List TaskId}
      {first : PriorityClass} {rest : List PriorityClass} :
      system.classes = first :: rest → first.queue = front :: others →
      system.schedulerData cpu = some successor →
      system.priority front ≤ system.priority successor →
      Decides system cpu
        { system with
          schedulerData := Function.update system.schedulerData cpu none }
        (some successor)
  | front {front : TaskId} {others : List TaskId} {first : PriorityClass}
      {rest : List PriorityClass} :
      system.classes = first :: rest → first.queue = front :: others →
      system.schedulerData cpu = none →
      Decides system cpu
        { system with classes := popFront first others rest } (some front)
  | displaced {successor front : TaskId} {others : List TaskId}
      {first : PriorityClass} {rest : List PriorityClass} :
      system.classes = first :: rest → first.queue = front :: others →
      system.schedulerData cpu = some successor →
      system.priority successor < system.priority front →
      Decides system cpu
        { system.recordsQueued successor with
          classes :=
            withClass (negated (system.priority successor))
              (PriorityClass.push false successor)
              (popFront first others rest)
          schedulerData := Function.update system.schedulerData cpu none }
        (some front)

theorem decides_of_chooseTask {system next : System} {cpu : CPU}
    {task : Option TaskId}
    (chosen : system.chooseTask cpu = some (next, task)) :
    Decides system cpu next task := by
  unfold System.chooseTask at chosen
  split at chosen
  · rename_i noClass
    split at chosen
    · rename_i noSuccessor
      cases chosen
      exact .nothing noClass noSuccessor
    · rename_i successor found
      cases chosen
      exact .alone noClass found
  · rename_i first rest classes
    split at chosen
    · rename_i front others unlocked queue
      dsimp only at chosen
      generalize left : (if others.isEmpty then rest
        else { first with queue := others } :: rest) = popped at chosen
      have isPopped : popFront first others rest = popped := left
      subst isPopped
      split at chosen
      · rename_i noSuccessor
        cases chosen
        exact .front classes queue noSuccessor
      · rename_i successor found
        split at chosen
        · rename_i lower
          split at chosen
          · cases chosen
          · cases chosen
            exact .displaced classes queue found lower
        · rename_i notLower
          cases chosen
          exact .successor classes queue found (Int.not_lt.mp notLower)
    · cases chosen

/-! ## The invariant -/

/-- The call has the priority of its task. -/
structure Agrees (priority : TaskId → Int) (call : Call) : Prop where
  addition : ∀ add, call.addition = some add →
    add.priority = priority add.task
  key : ∀ key, Wakeups.pushKey call = some key →
    ∀ task, call.carries = some task → key = negated (priority task)

theorem carries_of_addition {call : Call} {add : Addition}
    (found : call.addition = some add) : call.carries = some add.task := by
  cases call with
  | addReadyTask own =>
      cases found
      rfl
  | takePollingSlot own =>
      cases found
      rfl
  | lockGlobal own =>
      cases found
      rfl
  | _ => cases found

/-- Only the priority of the task in its hands matters to a call. -/
theorem Agrees.congr {priority later : TaskId → Int} {call : Call}
    (agrees : Agrees priority call)
    (same : ∀ task, call.carries = some task → later task = priority task) :
    Agrees later call where
  addition := by
    intro add found
    rw [same add.task (carries_of_addition found)]
    exact agrees.addition add found
  key := by
    intro key pushes task carries
    rw [same task carries]
    exact agrees.key key pushes task carries

/-- A call that neither adds nor pushes a task knows no priority. -/
theorem Agrees.plain {priority : TaskId → Int} {call : Call}
    (noAddition : call.addition = none)
    (noPush : Wakeups.pushKey call = none) : Agrees priority call where
  addition := by
    intro add found
    rw [noAddition] at found
    cases found
  key := by
    intro key pushes
    rw [noPush] at pushes
    cases pushes

/-- The classes are in order; the keys in `pushing` are those of the classes
in which a call is going to insert a task. -/
structure InOrder (priority : TaskId → Int) (pushing : Int → Prop)
    (classes : List PriorityClass) : Prop where
  sorted : Sorted classes
  labelled : ∀ priorityClass ∈ classes, ∀ task ∈ priorityClass.queue,
    priorityClass.key = negated (priority task)
  filled : ∀ priorityClass ∈ classes,
    priorityClass.queue = [] → priorityClass.locked = true
  locked : ∀ priorityClass ∈ classes,
    priorityClass.locked = true → pushing priorityClass.key

namespace InOrder

variable {priority : TaskId → Int} {pushing : Int → Prop}
  {classes : List PriorityClass}

theorem withClass (inOrder : InOrder priority pushing classes)
    {later : Int → Prop} {key : Int} {change : PriorityClass → PriorityClass}
    (same : ∀ priorityClass, (change priorityClass).key = priorityClass.key)
    (labelled : ∀ old, ∀ task ∈ (change old).queue,
      task ∈ old.queue ∨ key = negated (priority task))
    (filled : ∀ old, (change old).queue = [] → (change old).locked = true)
    (locked : ∀ old, (change old).locked = true → later key)
    (others : ∀ other, other ≠ key → pushing other → later other) :
    InOrder priority later (Scheduling.withClass key change classes) where
  sorted := sorted_withClass same inOrder.sorted
  labelled := by
    intro priorityClass member task queued
    obtain ⟨other, -⟩ | ⟨old, isKey, origin, rfl⟩ :=
      withClass_cases inOrder.sorted member
    · exact inOrder.labelled priorityClass other task queued
    · rw [same, isKey]
      obtain before | inserted := labelled old task queued
      · obtain inClasses | rfl := origin
        · rw [← isKey]
          exact inOrder.labelled old inClasses task before
        · cases before
      · exact inserted
  filled := by
    intro priorityClass member empty
    obtain ⟨other, -⟩ | ⟨old, -, -, rfl⟩ :=
      withClass_cases inOrder.sorted member
    · exact inOrder.filled priorityClass other empty
    · exact filled old empty
  locked := by
    intro priorityClass member isLocked
    obtain ⟨other, differ⟩ | ⟨old, isKey, -, rfl⟩ :=
      withClass_cases inOrder.sorted member
    · exact others _ differ (inOrder.locked priorityClass other isLocked)
    · rw [same, isKey]
      exact locked old isLocked

theorem lock (inOrder : InOrder priority pushing classes)
    {later : Int → Prop} {key : Int} (isPushing : later key)
    (others : ∀ other, pushing other → later other) :
    InOrder priority later
      (Scheduling.withClass key PriorityClass.lock classes) :=
  inOrder.withClass (fun _ => rfl) (fun _ _ queued => Or.inl queued)
    (fun _ _ => rfl) (fun _ _ => isPushing) fun other _ => others other

theorem push (inOrder : InOrder priority pushing classes)
    {later : Int → Prop} {key : Int} {front : Bool} {task : TaskId}
    (isKey : key = negated (priority task))
    (others : ∀ other, other ≠ key → pushing other → later other) :
    InOrder priority later
      (Scheduling.withClass key (PriorityClass.push front task) classes) := by
  refine inOrder.withClass (fun _ => rfl) ?_ ?_ ?_ others
  · intro old other queued
    obtain rfl | before := mem_push.mp queued
    · exact Or.inr isKey
    · exact Or.inl before
  · intro old empty
    have inside : task ∈ (old.push front task).queue :=
      mem_push.mpr (Or.inl rfl)
    rw [empty] at inside
    cases inside
  · intro old isLocked
    cases isLocked

theorem pop {first : PriorityClass} {rest : List PriorityClass}
    (inOrder : InOrder priority pushing (first :: rest)) {front : TaskId}
    {others : List TaskId} (queue : first.queue = front :: others) :
    InOrder priority pushing (popFront first others rest) where
  sorted := sorted_popFront inOrder.sorted
  labelled := by
    intro priorityClass member task queued
    obtain inRest | ⟨-, rfl⟩ := mem_popFront member
    · exact inOrder.labelled priorityClass
        (List.mem_cons_of_mem _ inRest) task queued
    · refine inOrder.labelled first (List.mem_cons_self ..) task ?_
      rw [queue]
      exact List.mem_cons_of_mem _ queued
  filled := by
    intro priorityClass member empty
    obtain inRest | ⟨left, rfl⟩ := mem_popFront member
    · exact inOrder.filled priorityClass (List.mem_cons_of_mem _ inRest) empty
    · exact (left empty).elim
  locked := by
    intro priorityClass member isLocked
    obtain inRest | ⟨-, rfl⟩ := mem_popFront member
    · exact inOrder.locked priorityClass (List.mem_cons_of_mem _ inRest)
        isLocked
    · exact inOrder.locked first (List.mem_cons_self ..) isLocked

theorem mono (inOrder : InOrder priority pushing classes)
    {later : Int → Prop} (others : ∀ other, pushing other → later other) :
    InOrder priority later classes where
  sorted := inOrder.sorted
  labelled := inOrder.labelled
  filled := inOrder.filled
  locked := fun priorityClass member isLocked =>
    others _ (inOrder.locked priorityClass member isLocked)

end InOrder

/-- A call is going to insert a task in the class with the key. -/
def IsPushed (system : System) (key : Int) : Prop :=
  ∃ id, Wakeups.pushesTo system id = some key

structure Filed (system : System) : Prop where
  inOrder : InOrder system.priority (IsPushed system) system.classes
  agrees : ∀ id call, system.call id = some call →
    Agrees system.priority call

namespace Filed

variable {system next : System} {id : CallId}

theorem agrees_update (filed : Filed system) {new : Option Call}
    (calls : next.call = Function.update system.call id new)
    (priority : next.priority = system.priority)
    (newAgrees : ∀ call, new = some call → Agrees system.priority call)
    (other : CallId) (call : Call) (found : next.call other = some call) :
    Agrees next.priority call := by
  rw [priority]
  rw [calls] at found
  by_cases same : other = id
  · subst same
    rw [Function.update_self] at found
    exact newAgrees call found
  · rw [Function.update_of_ne same] at found
    exact filed.agrees other call found

/-- Other calls are still going to insert their tasks. -/
theorem isPushed_update {new : Option Call} {key : Int}
    (calls : next.call = Function.update system.call id new)
    (apart : Wakeups.pushesTo system id ≠ some key)
    (pushed : IsPushed system key) : IsPushed next key := by
  obtain ⟨other, isPushing⟩ := pushed
  refine ⟨other, ?_⟩
  rw [Wakeups.pushes_update calls, if_neg]
  · exact isPushing
  · rintro rfl
    exact apart isPushing

/-- A step that does not touch the classes. -/
theorem keeps (filed : Filed system) {new : Option Call}
    (calls : next.call = Function.update system.call id new)
    (plain : Wakeups.pushesTo system id = none)
    (newAgrees : ∀ call, new = some call → Agrees system.priority call)
    (classes : next.classes = system.classes)
    (priority : next.priority = system.priority) : Filed next where
  inOrder := by
    rw [classes, priority]
    refine filed.inOrder.mono ?_
    intro key pushed
    refine isPushed_update calls ?_ pushed
    rw [plain]
    simp
  agrees := filed.agrees_update calls priority newAgrees

theorem locksClass (filed : Filed system) {computePlace : Option CPU}
    {task : TaskId} {key : Int} {front doGetIdle : Bool}
    (plain : Wakeups.pushesTo system id = none)
    (isKey : key = negated (system.priority task))
    (locks : system.locksClass id computePlace task key front doGetIdle =
      some next) : Filed next := by
  unfold System.locksClass at locks
  split at locks
  · cases locks
  · cases locks
    have calls : (system.goesOn id
        (.pushTask computePlace task key front doGetIdle)).call =
        Function.update system.call id
          (some (.pushTask computePlace task key front doGetIdle)) := rfl
    refine ⟨filed.inOrder.lock ?_ ?_, filed.agrees_update calls rfl ?_⟩
    · refine ⟨id, ?_⟩
      rw [Wakeups.pushes_update rfl, if_pos rfl]
      rfl
    · intro other pushed
      refine isPushed_update calls ?_ pushed
      rw [plain]
      simp
    · rintro call ⟨⟩
      constructor
      · intro add found
        cases found
      · rintro _ ⟨⟩ _ ⟨⟩
        exact isKey

theorem pushes (filed : Filed system) {call : Call} {task : TaskId}
    {key : Int} {front : Bool} {new : Option Call}
    (found : system.call id = some call)
    (carried : call.carries = some task)
    (pushing : Wakeups.pushKey call = some key)
    (newAgrees : ∀ later, new = some later → Agrees system.priority later)
    (calls : next.call = Function.update system.call id new)
    (classes : next.classes =
      withClass key (PriorityClass.push front task) system.classes)
    (priority : next.priority = system.priority) : Filed next := by
  refine ⟨?_, filed.agrees_update calls priority newAgrees⟩
  rw [classes, priority]
  refine filed.inOrder.push
    ((filed.agrees id call found).key key pushing task carried) ?_
  intro other differ isPushed
  refine isPushed_update calls ?_ isPushed
  have own : Wakeups.pushesTo system id = some key := by
    simp [Wakeups.pushesTo, found, pushing]
  rw [own]
  exact fun same => differ (Option.some.inj same).symm

/-- What a choice leaves; the call itself has not gone on yet. -/
theorem decides (filed : Filed system) {cpu : CPU} {task : Option TaskId}
    (decides : Decides system cpu next task) : Filed next := by
  cases decides with
  | nothing => exact filed
  | alone => exact ⟨filed.inOrder, filed.agrees⟩
  | successor => exact ⟨filed.inOrder, filed.agrees⟩
  | front classes queue =>
      refine ⟨?_, filed.agrees⟩
      have inOrder := filed.inOrder
      rw [classes] at inOrder
      exact inOrder.pop queue
  | displaced classes queue =>
      refine ⟨?_, filed.agrees⟩
      have inOrder := filed.inOrder
      rw [classes] at inOrder
      exact (inOrder.pop queue).push rfl fun _ _ pushed => pushed

theorem agrees_of_empty {priority : TaskId → Int} {new : Option Call}
    (addition : new.bind Call.addition = none)
    (pushes : new.bind Wakeups.pushKey = none) (later : Call)
    (isNew : new = some later) : Agrees priority later := by
  subst isNew
  exact .plain addition pushes

theorem effect (filed : Filed system) {call : Call}
    (found : system.call id = some call)
    (effect : Effect system id call next) : Filed next := by
  have pushing : Wakeups.pushesTo system id = Wakeups.pushKey call := by
    simp [Wakeups.pushesTo, found]
  have ended : ∀ later, (none : Option Call) = some later →
      Agrees system.priority later := fun later none => by cases none
  have chosen_of : ∀ {cpu chosen task},
      system.chooseTask cpu = some (chosen, task) →
      Wakeups.pushesTo system id = none →
      Filed chosen ∧ Wakeups.pushesTo chosen id = none := by
    intro cpu chosen task isChosen plain
    refine ⟨filed.decides (decides_of_chooseTask isChosen), ?_⟩
    unfold Wakeups.pushesTo at plain ⊢
    rw [(frame_of_chooses (chooses_of_chooseTask isChosen)).1]
    exact plain
  cases effect with
  | @quiet call new next quiet =>
      refine filed.keeps quiet.calls (pushing.trans quiet.pushes.1) ?_
        quiet.tasks.1 quiet.tasks.2.2.2
      rintro later rfl
      have noPush : Wakeups.pushKey later = none := quiet.pushes.2
      obtain none | same := quiet.addition
      · exact .plain none noPush
      · constructor
        · intro add isAdded
          have before : call.addition = some add := same.symm.trans isAdded
          exact (filed.agrees id call found).addition add before
        · intro key isPushed
          rw [noPush] at isPushed
          cases isPushed
  | succeeds => exact filed.keeps rfl pushing ended rfl rfl
  | fills => exact filed.keeps rfl pushing ended rfl rfl
  | @locks add next locked =>
      have agrees := (filed.agrees id _ found).addition add rfl
      exact filed.locksClass pushing (congrArg negated agrees) locked
  | queues locked => exact filed.locksClass pushing rfl locked
  | pushes _ addition pushes =>
      exact filed.pushes found rfl rfl (agrees_of_empty addition pushes) rfl
        rfl rfl
  | @gets cpu chosen task isChosen =>
      obtain ⟨after, plain⟩ := chosen_of isChosen pushing
      cases task with
      | none =>
          exact after.keeps rfl plain (fun _ none => by cases none) rfl rfl
      | some task =>
          exact after.keeps rfl plain (fun _ none => by cases none) rfl rfl
  | @polls cpu chosen task isChosen =>
      obtain ⟨after, plain⟩ := chosen_of isChosen pushing
      exact after.keeps rfl plain (agrees_of_empty rfl rfl) rfl rfl
  | @registers cpu chosen isChosen =>
      obtain ⟨after, plain⟩ := chosen_of isChosen pushing
      exact after.keeps rfl plain (agrees_of_empty rfl rfl) rfl rfl
  | @idles cpu chosen isChosen =>
      obtain ⟨after, plain⟩ := chosen_of isChosen pushing
      exact after.keeps rfl plain (fun _ none => by cases none) rfl rfl
  | takes => exact filed.keeps rfl pushing (agrees_of_empty rfl rfl) rfl rfl
  | returns => exact filed.keeps rfl pushing ended rfl rfl
  | leaves =>
      unfold System.returnsTask
      split
      · exact filed.keeps rfl pushing ended rfl rfl
      · exact filed.keeps rfl pushing ended rfl rfl
  | disables =>
      exact filed.keeps rfl pushing (agrees_of_empty rfl rfl) rfl rfl

end Filed

/-! ## Runs -/

/-- What `get_priority` may give: a value from `least` on, for the tasks that
have a priority, whenever they are added. -/
def admits (hasPriority : TaskId → Bool) (least : Int) : Action → Bool
  | .addReadyTask task _ _ priority _ =>
      priority.isSome == hasPriority task &&
        priority.all fun value => least ≤ value && value < 2 ^ 63
  | _ => true

def Admitted (hasPriority : TaskId → Bool) (least : Int) (_ : System)
    (action : Action) : Prop :=
  admits hasPriority least action = true

instance (hasPriority : TaskId → Bool) (least : Int) (system : System)
    (action : Action) : Decidable (Admitted hasPriority least system action) :=
  inferInstanceAs (Decidable (admits hasPriority least action = true))

/-- The least priority that can be negated. -/
def leastNegatable : Int :=
  -2 ^ 63 + 1

theorem negated_of_le {priority : Int} (least : leastNegatable ≤ priority)
    (greatest : priority < 2 ^ 63) : negated priority = -priority := by
  unfold leastNegatable at least
  unfold negated
  apply Int.bmod_eq_of_le
  · omega
  · omega

structure Orderly (hasPriority : TaskId → Bool) (system : System) : Prop where
  possesses : system.Possesses
  newSlots : system.HasNewSlots
  filed : Filed system
  negatable : ∀ task, leastNegatable ≤ system.priority task ∧
    system.priority task < 2 ^ 63
  unset : ∀ task, hasPriority task = false → system.priority task = 0

theorem InOrder.congr {priority later : TaskId → Int} {pushing : Int → Prop}
    {classes : List PriorityClass}
    (inOrder : InOrder priority pushing classes)
    (same : ∀ task ∈ queuedTasks classes, later task = priority task) :
    InOrder later pushing classes where
  sorted := inOrder.sorted
  labelled := by
    intro priorityClass member task queued
    rw [same task (mem_queuedTasks.mpr ⟨priorityClass, member, queued⟩)]
    exact inOrder.labelled priorityClass member task queued
  filled := inOrder.filled
  locked := inOrder.locked

theorem priority_of_chooseTask {system chosen : System} {cpu : CPU}
    {task : Option TaskId}
    (isChosen : system.chooseTask cpu = some (chosen, task)) :
    chosen.priority = system.priority := by
  cases decides_of_chooseTask isChosen <;> rfl

theorem priority_of_effect {system next : System} {id : CallId} {call : Call}
    (effect : Effect system id call next) :
    next.priority = system.priority := by
  cases effect with
  | quiet quiet => exact quiet.tasks.2.2.2
  | locks locked =>
      unfold System.locksClass at locked
      split at locked
      · cases locked
      · cases locked
        rfl
  | queues locked =>
      unfold System.locksClass at locked
      split at locked
      · cases locked
      · cases locked
        rfl
  | @gets cpu chosen task isChosen =>
      have kept := priority_of_chooseTask isChosen
      cases task with
      | none => exact kept
      | some task => exact kept
  | polls isChosen =>
      have kept := priority_of_chooseTask isChosen
      exact kept
  | registers isChosen =>
      have kept := priority_of_chooseTask isChosen
      exact kept
  | idles isChosen =>
      have kept := priority_of_chooseTask isChosen
      exact kept
  | leaves =>
      unfold System.returnsTask
      split
      · rfl
      · rfl
  | _ => rfl

namespace Orderly

variable {hasPriority : TaskId → Bool} {system next : System}

theorem effect (orderly : Orderly hasPriority system) {id : CallId}
    {call : Call} (found : system.call id = some call)
    (effect : Effect system id call next) : Orderly hasPriority next where
  possesses := orderly.possesses.effect found effect
  newSlots := orderly.newSlots.effect found effect
  filed := orderly.filed.effect found effect
  negatable := by
    rw [priority_of_effect effect]
    exact orderly.negatable
  unset := by
    rw [priority_of_effect effect]
    exact orderly.unset

/-- A call without a task starts. -/
theorem startsEmpty (orderly : Orderly hasPriority system)
    (fresh : system.call system.nextCall = none) {call : Call}
    (empty : call.carries = none) (noAddition : call.addition = none)
    (plain : Wakeups.pushKey call = none ∧ call.stores = none)
    (started : system.starts call = some next) :
    Orderly hasPriority next := by
  have possesses := orderly.possesses.startsEmpty empty started
  unfold System.starts at started
  split at started
  · cases started
  · cases started
    have unpushed : Wakeups.pushesTo system system.nextCall = none := by
      simp [Wakeups.pushesTo, fresh]
    have unstored : (some call).bind Call.stores = none := plain.2
    refine ⟨possesses, ?_, ?_, orderly.negatable, orderly.unset⟩
    · exact orderly.newSlots.empties rfl (Or.inl unstored) rfl
        (fun _ empty => empty) (Or.inl rfl)
    · refine orderly.filed.keeps rfl unpushed ?_ rfl rfl
      rintro later ⟨⟩
      exact .plain noAddition plain.1

theorem adds (orderly : Orderly hasPriority system)
    (fresh : system.call system.nextCall = none) {task : TaskId}
    {computePlace : Option CPU} {hint : ReadyTaskHint} {priority : Option Int}
    {doGetIdle : Bool}
    (admitted : admits hasPriority leastNegatable
      (.addReadyTask task computePlace hint priority doGetIdle) = true)
    (taken : step system
      (.addReadyTask task computePlace hint priority doGetIdle) =
        some next) : Orderly hasPriority next := by
  have possesses := orderly.possesses.adds taken
  simp only [admits, Bool.and_eq_true, beq_iff_eq] at admitted
  obtain ⟨isSet, inRange⟩ := admitted
  simp only [step] at taken
  split at taken
  · rename_i balanced
    have absent : ¬ system.IsPending task := by
      intro pending
      unfold System.IsPending at pending
      exact absurd (balanced.symm.trans pending) (Nat.ne_of_lt
        (Nat.lt_succ_self _))
    generalize isLater : priority.elim system.priority
      (Function.update system.priority task) = later at taken
    have others : ∀ other, other ≠ task →
        later other = system.priority other := by
      intro other differ
      subst isLater
      cases priority with
      | none => rfl
      | some value => exact Function.update_of_ne differ _ _
    have own : later task = priority.getD 0 := by
      subst isLater
      cases priority with
      | none => exact orderly.unset task isSet.symm
      | some value => exact Function.update_self ..
    -- Whatever is somewhere in the scheduler keeps its priority.
    have same : ∀ other, system.IsPending other →
        later other = system.priority other := by
      intro other pending
      refine others other ?_
      rintro rfl
      exact absent pending
    have unpushed : Wakeups.pushesTo system system.nextCall = none := by
      simp [Wakeups.pushesTo, fresh]
    unfold System.starts at taken
    split at taken
    · cases taken
    · cases taken
      refine ⟨possesses, ?_, ⟨?_, ?_⟩, ?_, ?_⟩
      · exact orderly.newSlots.empties rfl (Or.inl rfl) rfl
          (fun _ empty => empty) (Or.inl rfl)
      · have kept := orderly.filed.inOrder.congr fun other queued =>
          same other (orderly.possesses.queued other queued).1
        refine kept.mono ?_
        intro key pushed
        refine @Filed.isPushed_update system _ _ _ _ rfl ?_ pushed
        rw [unpushed]
        simp
      · intro id call found
        have isFound : Function.update system.call system.nextCall
            (some (.addReadyTask ⟨task, computePlace, hint, priority.getD 0,
              doGetIdle⟩)) id = some call := found
        by_cases here : id = system.nextCall
        · rw [here, Function.update_self] at isFound
          cases isFound
          constructor
          · rintro add ⟨⟩
            exact own.symm
          · intro key pushes
            cases pushes
        · rw [Function.update_of_ne here] at isFound
          refine (orderly.filed.agrees id call isFound).congr ?_
          intro other carried
          refine same other (orderly.possesses.contained other (.call id) ?_).1
          simp [System.content, contentOf, isFound, carried]
      · intro other
        by_cases here : other = task
        · subst here
          show leastNegatable ≤ later other ∧ later other < 2 ^ 63
          rw [own]
          cases priority with
          | none =>
              rw [← orderly.unset other isSet.symm]
              exact orderly.negatable other
          | some value => simpa using inRange
        · show leastNegatable ≤ later other ∧ later other < 2 ^ 63
          rw [others other here]
          exact orderly.negatable other
      · intro other unset
        show later other = 0
        by_cases here : other = task
        · subst here
          rw [own]
          rw [unset] at isSet
          rw [Option.isSome_eq_false_iff, Option.isNone_iff_eq_none] at isSet
          rw [isSet]
          rfl
        · rw [others other here]
          exact orderly.unset other unset
  · cases taken

theorem step (orderly : Orderly hasPriority system)
    (fresh : system.call system.nextCall = none) {action : Action}
    (admitted : Admitted hasPriority leastNegatable system action)
    (taken : Scheduling.step system action = some next) :
    Orderly hasPriority next := by
  cases action with
  | addReadyTask task computePlace hint priority doGetIdle =>
      exact orderly.adds fresh admitted taken
  | getReadyTask cpu doWait =>
      cases doWait with
      | true => exact orderly.startsEmpty fresh rfl rfl ⟨rfl, rfl⟩ taken
      | false => exact orderly.startsEmpty fresh rfl rfl ⟨rfl, rfl⟩ taken
  | disableComputePlace cpu =>
      exact orderly.startsEmpty fresh rfl rfl ⟨rfl, rfl⟩ taken
  | getIdleComputePlace force =>
      simp only [Scheduling.step] at taken
      split at taken
      · cases taken
      · split at taken
        · cases taken
          exact { orderly with filed := { orderly.filed with } }
        · cases taken
          exact orderly
  | setAcceptsWork cpu value =>
      cases taken
      exact { orderly with filed := { orderly.filed with } }
  | shutdown =>
      cases taken
      exact { orderly with filed := { orderly.filed with } }
  | perform id =>
      obtain ⟨call, found, performed⟩ := Option.bind_eq_some_iff.mp taken
      exact orderly.effect found (effect_of_perform performed)

theorem initial : Orderly hasPriority {} where
  possesses := .initial
  newSlots := fun _ _ => ⟨rfl, by simp, fun _ stored => by cases stored⟩
  filed :=
    { inOrder :=
        { sorted := List.Pairwise.nil
          labelled := fun _ member => by cases member
          filled := fun _ member => by cases member
          locked := fun _ member => by cases member }
      agrees := fun _ _ found => by cases found }
  negatable := fun task => by
    show leastNegatable ≤ 0 ∧ (0 : Int) < 2 ^ 63
    decide
  unset := fun _ _ => rfl

end Orderly

theorem orderly_of_run {hasPriority : TaskId → Bool} {system : System}
    (run : Run step (Admitted hasPriority leastNegatable) {} system) :
    Orderly hasPriority system := by
  have fresh : ∀ state,
      Run step (Admitted hasPriority leastNegatable) {} state →
      state.call state.nextCall = none :=
    fun state before => fresh_of_run before (Nat.le_refl state.nextCall)
  refine run.invariant_with fresh Orderly.initial ?_
  intro state action next isFresh _ orderly admitted taken
  exact orderly.step isFresh admitted taken

/-! ## The order -/

/-- A call of CPU `cpu` takes a task of the highest priority, and all others
stay in the scheduler. -/
structure TakesBest (system : System) (cpu : CPU) (task : TaskId)
    (next : System) : Prop where
  candidate : task ∈ queuedTasks system.classes ∨
    system.schedulerData cpu = some task
  best : ∀ other, other ∈ queuedTasks system.classes ∨
    system.schedulerData cpu = some other →
    system.priority other ≤ system.priority task
  kept : ∀ other, other ≠ task → (∃ place, system.Has other place) →
    ∃ place, next.Has other place
  /-- A displaced immediate successor is in a class. -/
  displaced : ∀ successor, system.schedulerData cpu = some successor →
    successor ≠ task → successor ∈ queuedTasks next.classes

structure OrdersPriorities (system : System) : Prop where
  priorities : ∀ priorityClass ∈ system.classes,
    ∀ task ∈ priorityClass.queue, system.priority task = -priorityClass.key
  returned : ∀ id cpu next, system.call id = some (.getReadyTask cpu) →
    step system (.perform id) = some next →
    (∃ task, next.returns =
        Function.update system.returns task (system.returns task + 1) ∧
      TakesBest system cpu task next) ∨
    (next.returns = system.returns ∧ queuedTasks system.classes = [] ∧
      system.schedulerData cpu = none)
  polled : ∀ id cpu next, system.call id = some (.requestPolling cpu) →
    step system (.perform id) = some next →
    (∃ task slot, next.call id = some (.testTask cpu slot none) ∧
      next.slot slot = some task ∧ TakesBest system cpu task next) ∨
    (next.slot = system.slot ∧ queuedTasks system.classes = [] ∧
      system.schedulerData cpu = none)

/-- A class is empty only while a call that has locked it is going to insert
its task. -/
def EmptyWhileLocked (system : System) : Prop :=
  ∀ priorityClass ∈ system.classes, priorityClass.queue = [] →
    priorityClass.locked = true ∧
      ∃ id computePlace task front doGetIdle,
        system.call id = some
          (.pushTask computePlace task priorityClass.key front doGetIdle)

namespace Orderly

variable {hasPriority : TaskId → Bool} {system chosen next : System}
  {cpu : CPU}

theorem priority_eq (orderly : Orderly hasPriority system)
    {priorityClass : PriorityClass} (member : priorityClass ∈ system.classes)
    {task : TaskId} (queued : task ∈ priorityClass.queue) :
    system.priority task = -priorityClass.key := by
  obtain ⟨least, greatest⟩ := orderly.negatable task
  have isKey :=
    orderly.filed.inOrder.labelled priorityClass member task queued
  rw [negated_of_le least greatest] at isKey
  omega

/-- The front of the first class is a task of the highest priority. -/
theorem front_best (orderly : Orderly hasPriority system)
    {first : PriorityClass} {rest : List PriorityClass} {front : TaskId}
    {others : List TaskId} (classes : system.classes = first :: rest)
    (queue : first.queue = front :: others) {other : TaskId}
    (queued : other ∈ queuedTasks system.classes) :
    system.priority other ≤ system.priority front := by
  have isFirst : first ∈ system.classes := by
    rw [classes]
    exact List.mem_cons_self ..
  have atFront : system.priority front = -first.key := by
    refine orderly.priority_eq isFirst ?_
    rw [queue]
    exact List.mem_cons_self ..
  obtain ⟨priorityClass, member, inside⟩ := mem_queuedTasks.mp queued
  have here := orderly.priority_eq member inside
  have sorted := orderly.filed.inOrder.sorted
  rw [classes] at member sorted
  obtain rfl | inRest := List.mem_cons.mp member
  · omega
  · have later := (List.pairwise_cons.mp sorted).1 priorityClass inRest
    omega

/-- The chosen task is one of the candidates, and none has a higher
priority. -/
theorem best_of_decides (orderly : Orderly hasPriority system)
    {task : TaskId} (decides : Decides system cpu chosen (some task)) :
    (task ∈ queuedTasks system.classes ∨
      system.schedulerData cpu = some task) ∧
    ∀ other, other ∈ queuedTasks system.classes ∨
      system.schedulerData cpu = some other →
      system.priority other ≤ system.priority task := by
  have inFirst : ∀ {first : PriorityClass} {rest : List PriorityClass}
      {front : TaskId} {others : List TaskId},
      system.classes = first :: rest → first.queue = front :: others →
      front ∈ queuedTasks system.classes := by
    intro first rest front others classes queue
    refine mem_queuedTasks.mpr ⟨first, ?_, ?_⟩
    · rw [classes]
      exact List.mem_cons_self ..
    · rw [queue]
      exact List.mem_cons_self ..
  cases decides with
  | alone noClass found =>
      refine ⟨Or.inr found, ?_⟩
      rintro other (queued | also)
      · rw [noClass] at queued
        cases queued
      · rw [found] at also
        cases also
        exact Int.le_refl _
  | successor classes queue found lower =>
      refine ⟨Or.inr found, ?_⟩
      rintro other (queued | also)
      · exact Int.le_trans (orderly.front_best classes queue queued) lower
      · rw [found] at also
        cases also
        exact Int.le_refl _
  | front classes queue noSuccessor =>
      refine ⟨Or.inl (inFirst classes queue), ?_⟩
      rintro other (queued | also)
      · exact orderly.front_best classes queue queued
      · rw [noSuccessor] at also
        cases also
  | displaced classes queue found lower =>
      refine ⟨Or.inl (inFirst classes queue), ?_⟩
      rintro other (queued | also)
      · exact orderly.front_best classes queue queued
      · rw [found] at also
        cases also
        exact Int.le_of_lt lower

end Orderly

section Keeping

variable {system chosen next : System} {cpu : CPU} {task : TaskId}

/-- The task is in a class, or a place of its own has kept it. -/
theorem has_of_kept {other : TaskId}
    (queue : other ∈ queuedTasks system.classes →
      other ∈ queuedTasks next.classes)
    (content : ∀ holder, system.content holder = some other →
      next.content holder = some other ∨ other ∈ queuedTasks next.classes)
    (has : ∃ place, system.Has other place) :
    ∃ place, next.Has other place := by
  obtain ⟨place, here⟩ := has
  cases place with
  | outside => cases here
  | queue => exact ⟨.queue, queue here⟩
  | cell holder =>
      obtain kept | queued := content holder here
      · exact ⟨.cell holder, kept⟩
      · exact ⟨.queue, queued⟩

/-- A choice takes nothing else out of the scheduler. -/
theorem kept_of_chooses (chooses : Chooses system cpu chosen (some task))
    {other : TaskId} (differ : other ≠ task) :
    (other ∈ queuedTasks system.classes →
      other ∈ queuedTasks chosen.classes) ∧
    ∀ holder, system.content holder = some other →
      chosen.content holder = some other ∨
        other ∈ queuedTasks chosen.classes := by
  -- Only the slot of the immediate successor is emptied.
  have emptied : ∀ holder, system.content holder = some other →
      system.schedulerData cpu ≠ some other →
      contentOf (Function.update system.schedulerData cpu none) system.slot
        system.call holder = some other := by
    intro holder here apart
    rw [contentOf_successor, Function.update_of_ne]
    · exact here
    · rintro rfl
      exact apart here
  cases chooses with
  | successor found =>
      refine ⟨id, ?_⟩
      intro holder here
      refine Or.inl (emptied holder here ?_)
      rw [found]
      exact fun same => differ (Option.some.inj same).symm
  | queued noSuccessor split =>
      refine ⟨?_, fun holder here => Or.inl here⟩
      intro queued
      exact (List.mem_cons.mp (split.mem_iff.mp queued)).resolve_left differ
  | @exchanged _ successor popped found split =>
      have pushed := queuedTasks_push (negated (system.priority successor))
        false successor popped
      refine ⟨?_, ?_⟩
      · intro queued
        have left :=
          (List.mem_cons.mp (split.mem_iff.mp queued)).resolve_left differ
        exact pushed.mem_iff.mpr (List.mem_cons_of_mem _ left)
      · intro holder here
        by_cases displaced : other = successor
        · subst displaced
          exact Or.inr (pushed.mem_iff.mpr (List.mem_cons_self ..))
        · refine Or.inl (emptied holder here ?_)
          rw [found]
          exact fun same => displaced (Option.some.inj same).symm

theorem displaced_of_chooses
    (chooses : Chooses system cpu chosen (some task)) {successor : TaskId}
    (found : system.schedulerData cpu = some successor)
    (differ : successor ≠ task) :
    successor ∈ queuedTasks chosen.classes := by
  cases chooses with
  | successor also =>
      rw [found] at also
      cases also
      exact (differ rfl).elim
  | queued noSuccessor split =>
      rw [found] at noSuccessor
      cases noSuccessor
  | @exchanged _ displaced popped also split =>
      rw [found] at also
      cases also
      exact (queuedTasks_push _ false successor popped).mem_iff.mpr
        (List.mem_cons_self ..)

/-- A call that has chosen a task goes on, and no place loses its task. -/
theorem takesBest_of_chooseTask {hasPriority : TaskId → Bool}
    (orderly : Orderly hasPriority system)
    (isChosen : system.chooseTask cpu = some (chosen, some task))
    (classes : next.classes = chosen.classes)
    (content : ∀ holder other, chosen.content holder = some other →
      next.content holder = some other) :
    TakesBest system cpu task next := by
  have chooses := chooses_of_chooseTask isChosen
  obtain ⟨candidate, best⟩ :=
    orderly.best_of_decides (decides_of_chooseTask isChosen)
  refine ⟨candidate, best, ?_, ?_⟩
  · intro other differ has
    obtain ⟨queue, cells⟩ := kept_of_chooses chooses differ
    refine has_of_kept ?_ ?_ has
    · rw [classes]
      exact queue
    · intro holder here
      rw [classes]
      exact (cells holder here).imp_left (content holder other)
  · intro successor found differ
    rw [classes]
    exact displaced_of_chooses chooses found differ

end Keeping

section Calls

variable {hasPriority : TaskId → Bool} {system next : System} {id : CallId}
  {cpu : CPU}

theorem nothing_of_chooseTask {chosen : System}
    (isChosen : system.chooseTask cpu = some (chosen, none)) :
    queuedTasks system.classes = [] ∧ system.schedulerData cpu = none := by
  cases decides_of_chooseTask isChosen with
  | nothing noClass noSuccessor =>
      rw [noClass]
      exact ⟨rfl, noSuccessor⟩

/-- The call has no task in its hands, before and after. -/
theorem content_of_plain {chosen : System} {call : Call} {new : Option Call}
    (calls : chosen.call = system.call) (found : system.call id = some call)
    (empty : call.carries = none) (stays : new.bind Call.carries = none) :
    contentOf chosen.schedulerData chosen.slot
      (Function.update chosen.call id new) = chosen.content := by
  refine System.Possesses.content_of_empty ?_ stays
  simp [System.carries, calls, found, empty]

theorem returned_of_orderly (orderly : Orderly hasPriority system)
    (found : system.call id = some (.getReadyTask cpu))
    (performed : perform system id (.getReadyTask cpu) = some next) :
    (∃ task, next.returns =
        Function.update system.returns task (system.returns task + 1) ∧
      TakesBest system cpu task next) ∨
    (next.returns = system.returns ∧ queuedTasks system.classes = [] ∧
      system.schedulerData cpu = none) := by
  simp only [perform] at performed
  split at performed
  · cases performed
  obtain ⟨⟨chosen, task⟩, isChosen, rfl⟩ := Option.map_eq_some_iff.mp performed
  obtain ⟨calls, -, -, -, -, -, returns⟩ :=
    frame_of_chooses (chooses_of_chooseTask isChosen)
  have content : contentOf chosen.schedulerData chosen.slot
      (Function.update chosen.call id none) = chosen.content :=
    content_of_plain calls found rfl rfl
  cases task with
  | none => exact Or.inr ⟨returns, nothing_of_chooseTask isChosen⟩
  | some task =>
      refine Or.inl ⟨task, ?_, ?_⟩
      · rw [← returns]
        rfl
      · refine takesBest_of_chooseTask orderly isChosen rfl ?_
        intro holder other here
        exact (congrFun content holder).trans here

theorem polled_of_orderly (orderly : Orderly hasPriority system)
    (found : system.call id = some (.requestPolling cpu))
    (performed : perform system id (.requestPolling cpu) = some next) :
    (∃ task slot, next.call id = some (.testTask cpu slot none) ∧
      next.slot slot = some task ∧ TakesBest system cpu task next) ∨
    (next.slot = system.slot ∧ queuedTasks system.classes = [] ∧
      system.schedulerData cpu = none) := by
  simp only [perform] at performed
  split at performed
  · cases performed
  obtain ⟨⟨chosen, task⟩, isChosen, rfl⟩ := Option.map_eq_some_iff.mp performed
  obtain ⟨calls, -, slots, nextSlot, -, -, -⟩ :=
    frame_of_chooses (chooses_of_chooseTask isChosen)
  have content : contentOf chosen.schedulerData chosen.slot
      (Function.update chosen.call id
        (some (.testTask cpu chosen.nextSlot none))) = chosen.content :=
    content_of_plain calls found rfl rfl
  cases task with
  | none =>
      refine Or.inr ⟨?_, nothing_of_chooseTask isChosen⟩
      dsimp only
      split
      · exact slots
      · exact slots
  | some task =>
      refine Or.inl ⟨task, chosen.nextSlot, ?_, ?_, ?_⟩
      · exact Function.update_self ..
      · exact Function.update_self ..
      · refine takesBest_of_chooseTask orderly isChosen rfl ?_
        intro holder other here
        show contentOf chosen.schedulerData
          (Function.update chosen.slot chosen.nextSlot (some task))
          (Function.update chosen.call id
            (some (.testTask cpu chosen.nextSlot none))) holder = some other
        rw [contentOf_slot, content, Function.update_of_ne]
        · exact here
        · -- The slot is new, so it holds no task.
          rintro rfl
          have empty := (orderly.newSlots chosen.nextSlot
            (Nat.le_of_eq nextSlot.symm)).1
          have full : chosen.slot chosen.nextSlot = some other := here
          rw [slots, empty] at full
          cases full

end Calls

/-- In every run in which no task has the least priority of all: a class is
empty only while a call that has locked it is going to insert its task, every
task is in the class of its priority, and a task that is taken has the highest
priority of those that are queued and of the immediate successor. -/
theorem ordersPriorities_of_run {hasPriority : TaskId → Bool}
    {system : System}
    (run : Run step (Admitted hasPriority leastNegatable) {} system) :
    EmptyWhileLocked system ∧ OrdersPriorities system := by
  have orderly := orderly_of_run run
  have inOrder := orderly.filed.inOrder
  refine ⟨?_, ?_, ?_, ?_⟩
  · intro priorityClass member empty
    have isLocked := inOrder.filled priorityClass member empty
    refine ⟨isLocked, ?_⟩
    obtain ⟨id, pushing⟩ := inOrder.locked priorityClass member isLocked
    obtain ⟨call, found, isKey⟩ := Option.bind_eq_some_iff.mp pushing
    cases call with
    | pushTask computePlace task key front doGetIdle =>
        cases isKey
        exact ⟨id, computePlace, task, front, doGetIdle, found⟩
    | _ => cases isKey
  · intro priorityClass member task queued
    exact orderly.priority_eq member queued
  · intro id cpu next found taken
    obtain ⟨call, also, performed⟩ := Option.bind_eq_some_iff.mp taken
    rw [found] at also
    cases also
    exact returned_of_orderly orderly found performed
  · intro id cpu next found taken
    obtain ⟨call, also, performed⟩ := Option.bind_eq_some_iff.mp taken
    rw [found] at also
    cases also
    exact polled_of_orderly orderly found performed

/-- Task 8 has a higher priority than task 7 and is returned first. -/
theorem ordersPriorities_higher_first :
    ∃ system,
      Run step (Admitted (fun _ => true) leastNegatable) {} system ∧
      system.returns 8 = 1 ∧ queuedTasks system.classes = [7] ∧
      EmptyWhileLocked system ∧ OrdersPriorities system := by
  obtain ⟨system, run, holds⟩ :=
    exists_run_of_executeAllowed
      ([.addReadyTask 7 none .childTask (some 1) false, .perform 0,
        .perform 0, .perform 0, .perform 0,
        .addReadyTask 8 none .childTask (some 5) false, .perform 1,
        .perform 1, .perform 1, .perform 1, .getReadyTask 0 false,
        .perform 2] : List Action)
      ({} : System)
      (fun system =>
        system.returns 8 == 1 && queuedTasks system.classes == [7])
      (by decide +kernel : (executeAllowed step
        (Admitted (fun _ => true) leastNegatable) ({} : System) _).any _ =
          true)
  simp only [Bool.and_eq_true, beq_iff_eq] at holds
  exact ⟨system, run, holds.1, holds.2, ordersPriorities_of_run run⟩

/-- A call has released the global lock and has not inserted its task yet: the
class is empty. -/
theorem ordersPriorities_empty_class :
    ¬ ∀ (hasPriority : TaskId → Bool) (system : System),
      Run step (Admitted hasPriority (-2 ^ 63)) {} system →
      (system.globalLocked = false →
        ∀ priorityClass ∈ system.classes, priorityClass.queue ≠ []) ∧
      OrdersPriorities system := by
  intro always
  obtain ⟨system, run, holds⟩ :=
    exists_run_of_executeAllowed
      ([.addReadyTask 7 none .childTask (some 1) false, .perform 0,
        .perform 0, .perform 0] : List Action)
      ({} : System)
      (fun system =>
        !system.globalLocked &&
          system.classes.any fun priorityClass =>
            priorityClass.queue.isEmpty)
      (by decide +kernel : (executeAllowed step
        (Admitted (fun _ => true) (-2 ^ 63)) ({} : System) _).any _ = true)
  simp only [Bool.and_eq_true, Bool.not_eq_true', List.any_eq_true,
    List.isEmpty_iff] at holds
  obtain ⟨free, priorityClass, member, empty⟩ := holds
  exact (always _ system run).1 free priorityClass member empty

end Priorities

end Nanos6.Scheduling
