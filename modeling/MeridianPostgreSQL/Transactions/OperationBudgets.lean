import Mathlib.Algebra.Order.Ring.Rat
import MeridianPostgreSQL.Foundation.Exceptions

/-! # Operation budgets

`OperationBudget`: the time that one operation may take, with the contexts that
may end it sooner. Budgets are shared by reference. The clock and the contexts
answer every question from what has happened so far. -/

namespace MeridianPostgreSQL.DriverWaits

/-- What is raised during a wait. -/
inductive Raise where
  | meridianTimeout (code message : String)
  | database (sqlstate : Option String)
  | other
deriving DecidableEq

def expired : Raise :=
  .meridianTimeout "DEADLINE_EXCEEDED" "PostgreSQL operation expired or cancelled"

/-- What the driver's generator does once it is started or resumed. -/
inductive Reply (Value : Type) where
  | yielded (state : Nat)
  | returned (value : Value)
  | raised (error : Raise)
deriving DecidableEq

/-- How an action ends that does not return. A loop whose turns are used up is
still running. -/
inductive Ending (Value : Type) where
  | stopIteration (value : Value)
  | error (error : Raise)
  | unfinished
deriving DecidableEq

/-! ## The world -/

/-- Times are in seconds. -/
inductive Event (Context Value : Type) where
  | clocked (instant : ℚ)
  | asked (context : Context) (remaining : Option ℚ)
  | resumed (sent : Option Nat)
  | replied (reply : Reply Value)
  | selecting (timeout : ℚ)
  | finished
  | closed
deriving DecidableEq

structure OperationBudget (Context : Type) where
  expires : ℚ
  contexts : List Context

/-- The budgets made so far, the one that is inherited, and what happened. -/
structure World (Context Value : Type) where
  budgets : Nat → OperationBudget Context
  allocated : Nat
  ioBudget : Option Nat
  log : List (Event Context Value)
  valid : ∀ budget ∈ ioBudget, budget < allocated

/-- Every answer may depend on all that happened. No answer stands for an error
that is not the server's. -/
structure Environment (Context Value : Type) where
  clock : List (Event Context Value) → ℚ
  currentContext : List (Event Context Value) → Option Context
  remainingSeconds : Context → List (Event Context Value) → Option ℚ
  generator : List (Event Context Value) → Reply Value
  socket : List (Event Context Value) → Option Nat
  selectorFactory : List (Event Context Value) → Option Unit
  register : Nat → Nat → List (Event Context Value) → Option Unit
  modifyEvents : Nat → Nat → List (Event Context Value) → Option Unit
  select : List (Event Context Value) → Option (List Nat)
  exit : List (Event Context Value) → Option Unit
  finish : List (Event Context Value) → Option Unit
  close : List (Event Context Value) → Option Unit

section World

variable {Context Value : Type}

def World.notes (world : World Context Value) (events : List (Event Context Value)) :
    World Context Value :=
  { world with log := world.log ++ events }

def World.withBudget (world : World Context Value) (budget : Nat)
    (contents : OperationBudget Context) : World Context Value :=
  { world with budgets := fun other => if other = budget then contents else world.budgets other }

def World.allocate (world : World Context Value) (contents : OperationBudget Context) :
    World Context Value :=
  { world.withBudget world.allocated contents with
    allocated := world.allocated + 1
    valid := fun budget inherited => Nat.lt_succ_of_lt (world.valid budget inherited) }

end World

abbrev Waiting (Context Value α : Type) := EStateM (Ending Value) (World Context Value) α

section Steps

variable {Context Value : Type}

def note (event : Event Context Value) : Waiting Context Value Unit :=
  modify fun world => world.notes [event]

def ask {α : Type} (answer : List (Event Context Value) → α) : Waiting Context Value α := do
  let world ← get
  pure (answer world.log)

def answered {α : Type} (answer : List (Event Context Value) → Option α) :
    Waiting Context Value α := do
  match ← ask answer with
  | none => throw (.error .other)
  | some result => pure result

variable (environment : Environment Context Value)

/-- `time.monotonic()` -/
def monotonic : Waiting Context Value ℚ := do
  let instant ← ask environment.clock
  note (.clocked instant)
  pure instant

/-- `context.remaining_seconds()` -/
def remainingSeconds (context : Context) : Waiting Context Value (Option ℚ) := do
  let remaining ← ask (environment.remainingSeconds context)
  note (.asked context remaining)
  pure remaining

end Steps

/-! ## Budgets -/

namespace OperationBudget

variable {Context Value : Type}

def contents (budget : Nat) : Waiting Context Value (OperationBudget Context) := do
  let world ← get
  pure (world.budgets budget)

def set (budget : Nat) (contents : OperationBudget Context) : Waiting Context Value Unit :=
  modify fun world => world.withBudget budget contents

variable (environment : Environment Context Value)

/-- The loop of `remaining`. -/
def narrowed : List Context → ℚ → Waiting Context Value ℚ
  | [], remaining => pure remaining
  | context :: rest, remaining => do
      match ← remainingSeconds environment context with
      | none => narrowed rest remaining
      | some value => narrowed rest (min remaining value)

/-- `remaining` -/
def remaining (budget : Nat) : Waiting Context Value ℚ := do
  let self ← contents budget
  let instant ← monotonic environment
  let remaining ← narrowed environment self.contexts (self.expires - instant)
  if remaining ≤ 0 then throw (.error expired) else pure remaining

variable [DecidableEq Context]

/-- `include` -/
def includeContext (budget : Nat) (context : Option Context) : Waiting Context Value Unit := do
  let self ← contents budget
  match context with
  | none => pure ()
  | some context =>
      if context ∈ self.contexts then pure ()
      else do
        set budget { self with contexts := self.contexts ++ [context] }
        match ← remainingSeconds environment context with
        | none => pure ()
        | some remaining => do
            let self ← contents budget
            let instant ← monotonic environment
            set budget { self with expires := min self.expires (instant + remaining) }

/-- `__init__` -/
def create (timeout : ℚ) (context : Option Context) : Waiting Context Value Nat := do
  let instant ← monotonic environment
  let world ← get
  modify fun world => world.allocate ⟨instant + timeout, []⟩
  let current ← ask environment.currentContext
  includeContext environment world.allocated (context <|> current)
  pure world.allocated

end OperationBudget

/-! ## Steps -/

section Steps

variable {Context Value : Type} {environment : Environment Context Value}
  {world : World Context Value} {raised : Ending Value → World Context Value → Prop}

@[simp] theorem notes_notes (first second : List (Event Context Value)) :
    (world.notes first).notes second = world.notes (first ++ second) := by
  simp [World.notes]

@[simp] theorem notes_budgets (events : List (Event Context Value)) :
    (world.notes events).budgets = world.budgets := rfl

@[simp] theorem ends_note {event : Event Context Value}
    {returned : Unit → World Context Value → Prop} :
    Ends (note event) world returned raised ↔ returned ⟨⟩ (world.notes [event]) := Iff.rfl

@[simp] theorem ends_ask {α : Type} {answer : List (Event Context Value) → α}
    {returned : α → World Context Value → Prop} :
    Ends (ask answer) world returned raised ↔ returned (answer world.log) world := Iff.rfl

@[simp] theorem ends_monotonic {returned : ℚ → World Context Value → Prop} :
    Ends (monotonic environment) world returned raised ↔
      returned (environment.clock world.log)
        (world.notes [.clocked (environment.clock world.log)]) := Iff.rfl

@[simp] theorem ends_remainingSeconds {context : Context}
    {returned : Option ℚ → World Context Value → Prop} :
    Ends (remainingSeconds environment context) world returned raised ↔
      returned (environment.remainingSeconds context world.log)
        (world.notes [.asked context (environment.remainingSeconds context world.log)]) := Iff.rfl

@[simp] theorem ends_contents {budget : Nat}
    {returned : OperationBudget Context → World Context Value → Prop} :
    Ends (OperationBudget.contents budget) world returned raised ↔
      returned (world.budgets budget) world := Iff.rfl

@[simp] theorem ends_set {budget : Nat} {contents : OperationBudget Context}
    {returned : Unit → World Context Value → Prop} :
    Ends (OperationBudget.set budget contents) world returned raised ↔
      returned ⟨⟩ (world.withBudget budget contents) := Iff.rfl

/-- A failed answer is no error of the server. -/
theorem ends_answered {α : Type} {answer : List (Event Context Value) → Option α}
    {returned : α → World Context Value → Prop} (found : ∀ result, returned result world)
    (failed : raised (.error .other) world) : Ends (answered answer) world returned raised := by
  unfold answered
  rw [ends_bind, ends_ask]
  cases answer world.log with
  | none => exact failed
  | some result => exact found result

end Steps

/-! ## Readings -/

section Readings

variable {Context Value : Type}

def Event.reads : Event Context Value → Bool
  | .clocked _ => true
  | .asked _ _ => true
  | _ => false

/-- The answers of contexts, as they stand in the log. -/
def answersOf (answers : List (Context × Option ℚ)) : List (Event Context Value) :=
  answers.map fun answer => .asked answer.1 answer.2

/-- Every context was asked, and none leaves less. -/
def Asked (contexts : List Context) (left : ℚ) (answers : List (Context × Option ℚ)) : Prop :=
  ∀ context ∈ contexts, ∃ value, (context, value) ∈ answers ∧ ∀ seconds ∈ value, left ≤ seconds

/-- The log ends with a reading of the clock and of the contexts that shows time
left, and no more than any limit and any context leave. -/
def Leaves (limits : List ℚ) (contexts : List Context) (left : ℚ)
    (log : List (Event Context Value)) : Prop :=
  0 < left ∧ ∃ earlier instant answers,
    log = earlier ++ .clocked instant :: answersOf answers ∧
      (∀ limit ∈ limits, left ≤ limit - instant) ∧ Asked contexts left answers

theorem Leaves.prepend {limits : List ℚ} {contexts : List Context} {left : ℚ}
    {log : List (Event Context Value)} (leaves : Leaves limits contexts left log)
    (before : List (Event Context Value)) : Leaves limits contexts left (before ++ log) := by
  obtain ⟨live, earlier, instant, answers, rfl, within, asked⟩ := leaves
  exact ⟨live, before ++ earlier, instant, answers, (List.append_assoc _ _ _).symm, within, asked⟩

/-- A budget that leaves no more than limits and contexts do. -/
structure Respects (limits : List ℚ) (contexts : List Context)
    (budget : OperationBudget Context) : Prop where
  limits : ∀ limit ∈ limits, budget.expires ≤ limit
  contexts : contexts ⊆ budget.contexts

variable {environment : Environment Context Value}

theorem narrowed_ends (contexts : List Context) :
    ∀ (remaining : ℚ) (world : World Context Value),
      Ends (OperationBudget.narrowed environment contexts remaining) world
        (fun left after => left ≤ remaining ∧
          ∃ answers, after = world.notes (answersOf answers) ∧ Asked contexts left answers)
        (fun _ _ => False) := by
  induction contexts with
  | nil =>
      intro remaining world
      exact ⟨le_refl remaining, [], by simp [answersOf, World.notes], nofun⟩
  | cons context rest induction =>
      intro remaining world
      unfold OperationBudget.narrowed
      rw [ends_bind, ends_remainingSeconds]
      generalize environment.remainingSeconds context world.log = answer
      have turn : ∀ narrow, narrow ≤ remaining → (∀ seconds ∈ answer, narrow ≤ seconds) →
          Ends (OperationBudget.narrowed environment rest narrow)
            (world.notes [.asked context answer])
            (fun left after => left ≤ remaining ∧
              ∃ answers, after = world.notes (answersOf answers) ∧
                Asked (context :: rest) left answers)
            (fun _ _ => False) := by
        intro narrow below own
        refine (induction narrow _).mono ?_ fun _ _ never => never
        rintro left after ⟨least, answers, rfl, asked⟩
        refine ⟨le_trans least below, (context, answer) :: answers, notes_notes _ _, ?_⟩
        intro other listed
        rcases List.mem_cons.mp listed with rfl | later
        · exact ⟨answer, List.mem_cons_self, fun seconds given =>
            le_trans least (own seconds given)⟩
        · obtain ⟨value, found, bounded⟩ := asked other later
          exact ⟨value, List.mem_cons_of_mem _ found, bounded⟩
      cases answer with
      | none => exact turn remaining (le_refl remaining) nofun
      | some value =>
          refine turn _ (min_le_left remaining value) ?_
          intro seconds same
          cases same
          exact min_le_right remaining value

/-- What `remaining` returns is left, and it raises once nothing is. -/
theorem remaining_ends {limits : List ℚ} {contexts : List Context} {budget : Nat}
    {world : World Context Value} (respects : Respects limits contexts (world.budgets budget)) :
    Ends (OperationBudget.remaining environment budget) world
      (fun left after => ∃ events, after = world.notes events ∧
        (∀ event ∈ events, event.reads = true) ∧ Leaves limits contexts left events)
      (fun ending after => ending = .error expired ∧
        ∃ events, after = world.notes events ∧ ∀ event ∈ events, event.reads = true) := by
  have reads : ∀ (instant : ℚ) (answers : List (Context × Option ℚ)),
      ∀ event ∈ (.clocked instant :: answersOf answers : List (Event Context Value)),
        event.reads = true := by
    intro instant answers event listed
    rcases List.mem_cons.mp listed with rfl | later
    · rfl
    · obtain ⟨answer, _, rfl⟩ := List.mem_map.mp later
      rfl
  unfold OperationBudget.remaining
  rw [ends_bind, ends_contents, ends_bind, ends_monotonic, ends_bind]
  refine (narrowed_ends _ _ _).mono ?_ fun _ _ never => never.elim
  rintro left after ⟨least, answers, rfl, asked⟩
  rw [notes_notes]
  split
  · exact ⟨rfl, _, rfl, reads _ answers⟩
  · rename_i live
    refine ⟨_, rfl, reads _ answers, not_le.mp live, [], _, answers, rfl, ?_, ?_⟩
    · intro limit listed
      exact le_trans least (sub_le_sub_right (respects.limits limit listed) _)
    · intro context listed
      exact asked context (respects.contexts listed)

end Readings

/-! ## Narrowing -/

section Narrowing

variable {Context Value : Type} {budget : Nat} {first second third : World Context Value}

/-- A budget was narrowed, and nothing else was done but to read. -/
structure Narrowed (budget : Nat) (first second : World Context Value) : Prop where
  others : ∀ other, other ≠ budget → second.budgets other = first.budgets other
  expires : (second.budgets budget).expires ≤ (first.budgets budget).expires
  contexts : (first.budgets budget).contexts ⊆ (second.budgets budget).contexts
  log : ∃ events, second.log = first.log ++ events ∧ ∀ event ∈ events, event.reads = true
  allocated : second.allocated = first.allocated
  ioBudget : second.ioBudget = first.ioBudget

theorem Narrowed.refl (budget : Nat) (world : World Context Value) :
    Narrowed budget world world where
  others _ _ := rfl
  expires := le_refl _
  contexts := List.Subset.refl _
  log := ⟨[], (List.append_nil _).symm, nofun⟩
  allocated := rfl
  ioBudget := rfl

theorem Narrowed.trans (left : Narrowed budget first second)
    (right : Narrowed budget second third) : Narrowed budget first third where
  others other different := (right.others other different).trans (left.others other different)
  expires := le_trans right.expires left.expires
  contexts := List.Subset.trans left.contexts right.contexts
  log := by
    obtain ⟨earlier, same, reads⟩ := left.log
    obtain ⟨later, next, more⟩ := right.log
    refine ⟨earlier ++ later, by rw [next, same, List.append_assoc], ?_⟩
    intro event listed
    exact (List.mem_append.mp listed).elim (reads event) (more event)
  allocated := right.allocated.trans left.allocated
  ioBudget := right.ioBudget.trans left.ioBudget

theorem Narrowed.reading {events : List (Event Context Value)}
    (reads : ∀ event ∈ events, event.reads = true) :
    Narrowed budget first (first.notes events) where
  others _ _ := rfl
  expires := le_refl _
  contexts := List.Subset.refl _
  log := ⟨events, rfl, reads⟩
  allocated := rfl
  ioBudget := rfl

/-- Contents that leave no more time. -/
theorem Narrowed.set {contents : OperationBudget Context}
    (expires : contents.expires ≤ (first.budgets budget).expires)
    (contexts : (first.budgets budget).contexts ⊆ contents.contexts) :
    Narrowed budget first (first.withBudget budget contents) where
  others _ different := if_neg different
  expires := by simpa [World.withBudget] using expires
  contexts := by simpa [World.withBudget] using contexts
  log := ⟨[], (List.append_nil _).symm, nofun⟩
  allocated := rfl
  ioBudget := rfl

variable [DecidableEq Context] {environment : Environment Context Value}

/-- `include` narrows its budget, which then has the context. -/
theorem includeContext_ends (budget : Nat) (context : Option Context)
    (world : World Context Value) :
    Ends (OperationBudget.includeContext environment budget context) world
      (fun _ after => Narrowed budget world after ∧
        ∀ given ∈ context, given ∈ (after.budgets budget).contexts)
      (fun _ _ => False) := by
  unfold OperationBudget.includeContext
  rw [ends_bind, ends_contents]
  cases context with
  | none => exact ⟨.refl budget world, nofun⟩
  | some context =>
      dsimp only
      split
      · rename_i known
        refine ⟨.refl budget world, ?_⟩
        rintro _ ⟨⟩
        exact known
      · have added : Narrowed budget world (world.withBudget budget
            { world.budgets budget with
              contexts := (world.budgets budget).contexts ++ [context] }) :=
          Narrowed.set (le_refl _) (List.subset_append_left _ _)
        generalize held : world.withBudget budget _ = widened at added
        have own : context ∈ (widened.budgets budget).contexts := by
          rw [← held]
          simp [World.withBudget]
        rw [ends_bind, ends_set, held, ends_bind, ends_remainingSeconds]
        generalize environment.remainingSeconds context widened.log = answer
        have read : Narrowed budget widened (widened.notes [.asked context answer]) :=
          Narrowed.reading (by simp [Event.reads])
        cases answer with
        | none =>
            refine ⟨added.trans read, ?_⟩
            rintro _ ⟨⟩
            exact own
        | some remaining =>
            dsimp only
            rw [ends_bind, ends_contents, ends_bind, ends_monotonic, ends_set]
            generalize environment.clock _ = instant
            have clocked : Narrowed budget (widened.notes [.asked context (some remaining)])
                ((widened.notes [.asked context (some remaining)]).notes [.clocked instant]) :=
              Narrowed.reading (by simp [Event.reads])
            refine ⟨((added.trans read).trans clocked).trans
              (Narrowed.set (min_le_left _ _) (List.Subset.refl _)), ?_⟩
            rintro _ ⟨⟩
            simpa [World.withBudget] using own

/-- A new budget, which expires no later than its timeout. -/
structure Created (timeout : ℚ) (contexts : List Context) (budget : Nat)
    (first second : World Context Value) : Prop where
  fresh : budget = first.allocated
  others : ∀ other, other ≠ budget → second.budgets other = first.budgets other
  expires : (second.budgets budget).expires ≤ timeout
  contexts : contexts ⊆ (second.budgets budget).contexts
  log : ∃ events, second.log = first.log ++ events ∧ ∀ event ∈ events, event.reads = true
  ioBudget : second.ioBudget = first.ioBudget

theorem create_ends (timeout : ℚ) (world : World Context Value) :
    Ends (OperationBudget.create environment timeout none) world
      (fun budget after => Created (environment.clock world.log + timeout)
        (environment.currentContext
          (world.log ++ [.clocked (environment.clock world.log)])).toList budget world after)
      (fun _ _ => False) := by
  unfold OperationBudget.create
  rw [ends_bind, ends_monotonic, ends_bind, ends_get, ends_bind, ends_modify, ends_bind, ends_ask,
    ends_bind]
  refine (includeContext_ends _ _ _).mono ?_ fun _ _ never => never
  rintro ⟨⟩ after ⟨narrowed, included⟩
  obtain ⟨events, same, reads⟩ := narrowed.log
  constructor
  case fresh => rfl
  case others =>
    exact fun other different => (narrowed.others other different).trans (if_neg different)
  case expires =>
    refine le_trans narrowed.expires (le_of_eq ?_)
    simp [World.allocate, World.withBudget, World.notes]
  case contexts => exact fun context current => included context (Option.mem_toList.mp current)
  case log =>
    refine ⟨.clocked (environment.clock world.log) :: events, ?_, ?_⟩
    · rw [same]
      simp [World.allocate, World.withBudget, World.notes]
    · intro event listed
      rcases List.mem_cons.mp listed with rfl | later
      · rfl
      · exact reads event later
  case ioBudget => exact narrowed.ioBudget

end Narrowing

end MeridianPostgreSQL.DriverWaits
