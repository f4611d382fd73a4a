import MeridianPostgreSQL.Foundation.GuardedLogs
import MeridianPostgreSQL.Transactions.OperationBudgets

/-! # Driver waits

`DeadlineConnection.wait`: a driver generator is started and resumed under one
budget, and the transport is discarded unless it is known to be in step with the
server. -/

namespace MeridianPostgreSQL.DriverWaits

/-- A complete error response of the server. -/
def Ending.complete {Value : Type} : Ending Value → Bool
  | .error (.database (some _)) => true
  | _ => false

/-- The turns of the loop are used up. -/
def Ending.running {Value : Type} : Ending Value → Bool
  | .unfinished => true
  | _ => false

section Actions

variable {Context Value : Type} (environment : Environment Context Value)

/-- `next` and `send` -/
def resume (sent : Option Nat) : Waiting Context Value Nat := do
  note (.resumed sent)
  let reply ← ask environment.generator
  note (.replied reply)
  match reply with
  | .yielded state => pure state
  | .returned value => throw (.stopIteration value)
  | .raised error => throw (.error error)

def selectFor (timeout : ℚ) : Waiting Context Value (List Nat) := do
  note (.selecting timeout)
  answered environment.select

/-- `while True`, for at most so many turns. -/
def poll (fileno budget : Nat) : Nat → Nat → Waiting Context Value Empty
  | 0, _ => throw .unfinished
  | turns + 1, state => do
      let left ← OperationBudget.remaining environment budget
      let ready ← selectFor environment (min left (1 / 20))
      let _ ← OperationBudget.remaining environment budget
      let nextState ← resume environment (some (ready.head?.getD 0))
      if nextState ≠ state then answered (environment.modifyEvents fileno nextState) else pure ()
      poll fileno budget turns nextState

/-- `with selector_factory()` -/
def withSelector (body : Waiting Context Value Empty) : Waiting Context Value Empty := do
  answered environment.selectorFactory
  tryCatch body fun ending => do
    if ending.running then throw ending
    else do
      answered environment.exit
      throw ending

/-- `except StopIteration` -/
def stopped (ending : Ending Value) : Waiting Context Value Value :=
  match ending with
  | .stopIteration value => pure value
  | ending => throw ending

/-- `consume` -/
def consume (turns fileno budget : Nat) : Waiting Context Value Value := do
  let _ ← OperationBudget.remaining environment budget
  tryCatch
    (do
      let state ← resume environment none
      let never ← withSelector environment do
        answered (environment.register fileno state)
        poll environment fileno budget turns state
      nomatch never)
    stopped

/-- `with suppress(BaseException)` -/
def suppress (action : Waiting Context Value Unit) : Waiting Context Value Unit :=
  tryCatch action fun _ => pure ()

def discard : Waiting Context Value Unit := do
  suppress do
    note .finished
    answered environment.finish
  suppress do
    note .closed
    answered environment.close

/-- Whether the transport is preserved. -/
def preserves (budget : Nat) (ending : Ending Value) : Waiting Context Value Bool :=
  if ending.complete then
    tryCatch
      (do
        let _ ← OperationBudget.remaining environment budget
        pure true)
      fun other =>
        match other with
        | .error (.meridianTimeout _ _) => pure false
        | other => throw other
  else pure false

/-- `except BaseException` -/
def recover (budget : Nat) (ending : Ending Value) : Waiting Context Value Value :=
  if ending.running then throw ending
  else do
    if ← preserves environment budget ending then throw ending
    else do
      discard environment
      throw ending

/-- `wait`, once the budget is known. -/
def drive (turns budget : Nat) : Waiting Context Value Value :=
  tryCatch
    (do
      let fileno ← answered environment.socket
      consume environment turns fileno budget)
    (recover environment budget)

variable [DecidableEq Context]

def includeAll (budget : Nat) : List Context → Waiting Context Value Unit
  | [] => pure ()
  | context :: rest => do
      OperationBudget.includeContext environment budget (some context)
      includeAll budget rest

/-- The budget of one wait with its own timeout. -/
def limited (timeout : ℚ) (inherited : Option Nat) : Waiting Context Value Nat := do
  let limited ← OperationBudget.create environment timeout none
  match inherited with
  | none => pure ()
  | some inherited => do
      let budget ← OperationBudget.contents inherited
      let self ← OperationBudget.contents limited
      OperationBudget.set limited { self with expires := min self.expires budget.expires }
      includeAll environment limited budget.contexts
  pure limited

/-- `wait`. Without any budget the driver waits in its own way. -/
def wait (turns : Nat) (own : ℚ → Waiting Context Value Value) (interval : ℚ)
    (timeout : Option ℚ) : Waiting Context Value Value := do
  let world ← get
  match timeout with
  | none =>
      match world.ioBudget with
      | none => own interval
      | some budget => drive environment turns budget
  | some timeout => do
      let budget ← limited environment timeout world.ioBudget
      drive environment turns budget

end Actions

/-! ## Events of a wait -/

section Events

variable {Context Value : Type}

/-- The generator runs, and its readiness is waited for, only right after a
reading that shows time left. It is closed only with the transport gone. -/
def Allowed (limits : List ℚ) (contexts : List Context) (before : List (Event Context Value)) :
    Event Context Value → Prop
  | .resumed _ => ∃ left, Leaves limits contexts left before
  | .selecting timeout => ∃ left, Leaves limits contexts left before ∧ timeout ≤ min (1 / 20) left
  | .closed => .finished ∈ before
  | _ => True

/-- The generator replied so, and it did not run since. -/
def LastReply (reply : Reply Value) (events : List (Event Context Value)) : Prop :=
  ∃ before after, events = before ++ .replied reply :: after ∧ ∀ sent, .resumed sent ∉ after

/-- The transport is open, and every event was allowed. -/
structure Open (limits : List ℚ) (contexts : List Context)
    (events : List (Event Context Value)) : Prop where
  guarded : GuardedLog (Allowed limits contexts) events
  unfinished : .finished ∉ events

/-- The transport is open, and the generator ended the wait if it completed. -/
structure Ended (limits : List ℚ) (contexts : List Context) (ending : Ending Value)
    (events : List (Event Context Value)) : Prop where
  toOpen : Open limits contexts events
  returned : ∀ value, ending = .stopIteration value → LastReply (.returned value) events
  raised : ∀ code, ending = .error (.database (some code)) →
    LastReply (.raised (.database (some code))) events

variable {limits : List ℚ} {contexts : List Context} {events more : List (Event Context Value)}

theorem reads_allowed {event : Event Context Value} (reads : event.reads = true)
    (before : List (Event Context Value)) : Allowed limits contexts before event := by
  cases event with
  | clocked instant => trivial
  | asked context remaining => trivial
  | _ => exact absurd reads Bool.false_ne_true

theorem Allowed.prepend {before : List (Event Context Value)} {event : Event Context Value}
    (allowed : Allowed limits contexts before event) (earlier : List (Event Context Value)) :
    Allowed limits contexts (earlier ++ before) event := by
  cases event with
  | resumed sent =>
      obtain ⟨left, leaves⟩ := allowed
      exact ⟨left, leaves.prepend earlier⟩
  | selecting timeout =>
      obtain ⟨left, leaves, bounded⟩ := allowed
      exact ⟨left, leaves.prepend earlier, bounded⟩
  | closed => exact List.mem_append_right earlier allowed
  | _ => trivial

theorem Open.next (opened : Open limits contexts events) {event : Event Context Value}
    (allowed : Allowed limits contexts events event) (other : event ≠ .finished) :
    Open limits contexts (events ++ [event]) where
  guarded := .next events event opened.guarded allowed
  unfinished listed := by
    rcases List.mem_append.mp listed with earlier | last
    · exact opened.unfinished earlier
    · exact other (List.mem_singleton.mp last).symm

theorem Open.reading (opened : Open limits contexts events)
    (reads : ∀ event ∈ more, event.reads = true) : Open limits contexts (events ++ more) where
  guarded := opened.guarded.append_free fun event listed before =>
    reads_allowed (reads event listed) before
  unfinished listed := by
    rcases List.mem_append.mp listed with earlier | last
    · exact opened.unfinished earlier
    · exact absurd (reads _ last) Bool.false_ne_true

theorem LastReply.reading {reply : Reply Value} (last : LastReply reply events)
    (reads : ∀ event ∈ more, event.reads = true) : LastReply reply (events ++ more) := by
  obtain ⟨before, after, rfl, idle⟩ := last
  refine ⟨before, after ++ more, by simp, fun sent listed => ?_⟩
  rcases List.mem_append.mp listed with earlier | last
  · exact idle sent earlier
  · exact absurd (reads _ last) Bool.false_ne_true

/-- An error that the server did not answer with. -/
theorem Open.ended (opened : Open limits contexts events) {error : Raise}
    (incomplete : ∀ code, error ≠ .database (some code)) :
    Ended limits contexts (.error error : Ending Value) events where
  toOpen := opened
  returned _ same := nomatch same
  raised code same := absurd (Ending.error.inj same) (incomplete code)

end Events

/-! ## Steps of a wait -/

section Drive

variable {Context Value : Type} {environment : Environment Context Value} {limits : List ℚ}
  {contexts : List Context} {start : World Context Value} {fileno budget : Nat}
  {events : List (Event Context Value)}

/-- What happened since a world has a property. -/
def After (start : World Context Value) (property : List (Event Context Value) → Prop)
    (world : World Context Value) : Prop :=
  ∃ events, world = start.notes events ∧ property events

/-- The generator runs while there is time left. -/
theorem resume_ends (opened : Open limits contexts events) {left : ℚ}
    (leaves : Leaves limits contexts left events) (sent : Option Nat) :
    Ends (resume environment sent) (start.notes events)
      (fun _ => After start (Open limits contexts))
      (fun ending => After start (Ended limits contexts ending)) := by
  have started : Open limits contexts (events ++ [.resumed sent]) :=
    opened.next ⟨left, leaves⟩ nofun
  unfold resume
  rw [ends_bind, ends_note, notes_notes, ends_bind, ends_ask, ends_bind, ends_note, notes_notes]
  generalize environment.generator _ = reply
  have replied : Open limits contexts (events ++ [.resumed sent] ++ [.replied reply]) :=
    started.next trivial nofun
  have last : LastReply reply (events ++ [.resumed sent] ++ [.replied reply]) :=
    ⟨_, [], rfl, fun _ => List.not_mem_nil⟩
  cases reply with
  | yielded state => exact ⟨_, rfl, replied⟩
  | returned value =>
      refine ⟨_, rfl, replied, ?_, nofun⟩
      rintro _ ⟨⟩
      exact last
  | raised error =>
      refine ⟨_, rfl, replied, nofun, ?_⟩
      rintro code ⟨⟩
      exact last

theorem answered_ends {α : Type} {answer : List (Event Context Value) → Option α}
    (opened : Open limits contexts events) :
    Ends (answered answer) (start.notes events)
      (fun _ after => after = start.notes events)
      (fun ending => After start (Ended limits contexts ending)) :=
  ends_answered (fun _ => rfl) ⟨events, rfl, opened.ended nofun⟩

/-- The selector is closed, whatever the body ends with. -/
theorem withSelector_ends {body : Waiting Context Value Empty}
    (opened : Open limits contexts events)
    (ends : Ends body (start.notes events) (fun _ _ => False)
      (fun ending => After start (Ended limits contexts ending))) :
    Ends (withSelector environment body) (start.notes events)
      (fun _ _ => False)
      (fun ending => After start (Ended limits contexts ending)) := by
  unfold withSelector
  rw [ends_bind]
  refine (answered_ends opened).mono ?_ fun _ _ ended => ended
  rintro ⟨⟩ _ rfl
  rw [ends_tryCatch]
  refine ends.mono (fun _ _ never => never) ?_
  rintro ending _ ⟨later, rfl, ended⟩
  split
  · exact ⟨later, rfl, ended⟩
  · rw [ends_bind]
    refine (answered_ends ended.toOpen).mono ?_ fun _ _ failed => failed
    rintro ⟨⟩ _ rfl
    exact ⟨later, rfl, ended⟩

section Budget

variable (respects : Respects limits contexts (start.budgets budget))

include respects

theorem remaining_open (opened : Open limits contexts events) :
    Ends (OperationBudget.remaining environment budget) (start.notes events)
      (fun left after => ∃ more, after = start.notes (events ++ more) ∧
        (∀ event ∈ more, event.reads = true) ∧ Open limits contexts (events ++ more) ∧
        Leaves limits contexts left (events ++ more))
      (fun ending after => ending = .error expired ∧ ∃ more,
        after = start.notes (events ++ more) ∧ (∀ event ∈ more, event.reads = true) ∧
        Open limits contexts (events ++ more)) := by
  have held : Respects limits contexts ((start.notes events).budgets budget) := respects
  refine (remaining_ends held).mono ?_ ?_
  · rintro left after ⟨more, rfl, reads, leaves⟩
    exact ⟨more, notes_notes _ _, reads, opened.reading reads, leaves.prepend events⟩
  · rintro ending after ⟨rfl, more, rfl, reads⟩
    exact ⟨rfl, more, notes_notes _ _, reads, opened.reading reads⟩

/-- Every turn waits no longer than the last reading allows, and reads again before
the generator runs. -/
theorem poll_ends (turns : Nat) :
    ∀ (state : Nat) (events : List (Event Context Value)), Open limits contexts events →
      Ends (poll environment fileno budget turns state) (start.notes events)
        (fun _ _ => False)
        (fun ending => After start (Ended limits contexts ending)) := by
  induction turns with
  | zero =>
      intro state events opened
      exact ⟨events, rfl, opened, nofun, nofun⟩
  | succ turns induction =>
      intro state events opened
      unfold poll
      rw [ends_bind]
      refine (remaining_open respects opened).mono ?_ ?_
      · rintro left _ ⟨more, rfl, _, opened, leaves⟩
        have selecting : Open limits contexts
            (events ++ more ++ [.selecting (min left (1 / 20))]) :=
          opened.next ⟨left, leaves, le_of_eq (min_comm _ _)⟩ nofun
        unfold selectFor
        rw [ends_bind, ends_bind, ends_note, notes_notes]
        refine (answered_ends selecting).mono ?_ fun _ _ ended => ended
        rintro ready _ rfl
        rw [ends_bind]
        refine (remaining_open respects selecting).mono ?_ ?_
        · rintro again _ ⟨later, rfl, _, opened, leaves⟩
          rw [ends_bind]
          refine (resume_ends opened leaves _).mono ?_ fun _ _ ended => ended
          rintro nextState _ ⟨latest, rfl, opened⟩
          dsimp only
          split
          · rw [ends_bind]
            refine (answered_ends opened).mono ?_ fun _ _ ended => ended
            rintro ⟨⟩ _ rfl
            exact induction nextState latest opened
          · exact induction nextState latest opened
        · rintro _ _ ⟨rfl, later, rfl, _, opened⟩
          exact ⟨_, rfl, opened.ended nofun⟩
      · rintro _ _ ⟨rfl, more, rfl, _, opened⟩
        exact ⟨_, rfl, opened.ended nofun⟩

/-- `consume` returns what the generator returned. -/
theorem consume_ends (turns : Nat) (opened : Open limits contexts events) :
    Ends (consume environment turns fileno budget) (start.notes events)
      (fun value => After start fun later =>
        Open limits contexts later ∧ LastReply (.returned value) later)
      (fun ending => After start (Ended limits contexts ending)) := by
  unfold consume
  rw [ends_bind]
  refine (remaining_open respects opened).mono ?_ ?_
  · rintro left _ ⟨more, rfl, _, opened, leaves⟩
    rw [ends_tryCatch, ends_bind]
    have caught : ∀ (ending : Ending Value) (after : World Context Value),
        After start (Ended limits contexts ending) after →
        Ends (stopped ending) after
          (fun value => After start fun later =>
            Open limits contexts later ∧ LastReply (.returned value) later)
          (fun ending => After start (Ended limits contexts ending)) := by
      rintro ending _ ⟨later, rfl, ended⟩
      cases ending with
      | stopIteration value => exact ⟨later, rfl, ended.toOpen, ended.returned value rfl⟩
      | error error => exact ⟨later, rfl, ended⟩
      | unfinished => exact ⟨later, rfl, ended⟩
    refine (resume_ends opened leaves none).mono ?_ caught
    rintro state _ ⟨later, rfl, opened⟩
    rw [ends_bind]
    refine (withSelector_ends opened ?_).mono nofun caught
    rw [ends_bind]
    refine (answered_ends opened).mono ?_ fun _ _ ended => ended
    rintro ⟨⟩ _ rfl
    exact poll_ends respects turns state later opened
  · rintro _ _ ⟨rfl, more, rfl, _, opened⟩
    exact ⟨_, rfl, opened.ended nofun⟩

/-- The generator raised a complete server error, and there was time left. -/
def Preserved (limits : List ℚ) (contexts : List Context) (ending : Ending Value)
    (later : List (Event Context Value)) : Prop :=
  ∃ code left, ending = .error (.database (some code)) ∧
    LastReply (.raised (.database (some code))) later ∧ Leaves limits contexts left later

theorem preserves_ends {ending : Ending Value} (ended : Ended limits contexts ending events) :
    Ends (preserves environment budget ending) (start.notes events)
      (fun kept => After start fun later => Open limits contexts later ∧
        (kept = true → Preserved limits contexts ending later))
      (fun _ _ => False) := by
  unfold preserves
  split
  · rename_i complete
    rw [ends_tryCatch, ends_bind]
    refine (remaining_open respects ended.toOpen).mono ?_ ?_
    · rintro left _ ⟨more, rfl, reads, opened, leaves⟩
      refine ⟨_, rfl, opened, fun _ => ?_⟩
      match ending, complete with
      | .error (.database (some code)), _ =>
          exact ⟨code, left, rfl, (ended.raised code rfl).reading reads, leaves⟩
    · rintro _ _ ⟨rfl, more, rfl, _, opened⟩
      exact ⟨_, rfl, opened, nofun⟩
  · exact ⟨events, rfl, ended.toOpen, nofun⟩

end Budget

/-- A step that leaves its event, whether or not it fails. -/
theorem suppress_ends (event : Event Context Value)
    (answer : List (Event Context Value) → Option Unit) (world : World Context Value) :
    Ends (suppress do
        note event
        answered answer) world
      (fun _ after => after = world.notes [event]) (fun _ _ => False) := by
  unfold suppress
  rw [ends_tryCatch, ends_bind, ends_note]
  exact ends_answered (fun _ => rfl) rfl

/-- Whether finishing and closing fail does not matter. -/
theorem discard_ends (opened : Open limits contexts events) :
    Ends (discard environment) (start.notes events)
      (fun _ => After start fun later =>
        GuardedLog (Allowed limits contexts) later ∧ .finished ∈ later)
      (fun _ _ => False) := by
  have finished : GuardedLog (Allowed limits contexts) (events ++ [.finished]) :=
    .next events _ opened.guarded trivial
  have closed : GuardedLog (Allowed limits contexts) (events ++ [.finished] ++ [.closed]) :=
    .next _ _ finished (List.mem_append_right events (List.mem_singleton.mpr rfl))
  unfold discard
  rw [ends_bind]
  refine (suppress_ends _ _ _).mono ?_ fun _ _ never => never
  rintro ⟨⟩ _ rfl
  refine (suppress_ends _ _ _).mono ?_ fun _ _ never => never
  rintro ⟨⟩ _ rfl
  refine ⟨_, ?_, closed, by simp⟩
  rw [notes_notes, notes_notes, List.append_assoc]

/-- How a wait ends that raises: it still runs, or its transport is preserved or gone. -/
def Raised (limits : List ℚ) (contexts : List Context) (ending : Ending Value)
    (later : List (Event Context Value)) : Prop :=
  GuardedLog (Allowed limits contexts) later ∧
    (ending = .unfinished ∨ .finished ∈ later ∨
      .finished ∉ later ∧ Preserved limits contexts ending later)

theorem drive_ends (respects : Respects limits contexts (start.budgets budget)) (turns : Nat) :
    Ends (drive environment turns budget) start
      (fun value => After start fun later =>
        Open limits contexts later ∧ LastReply (.returned value) later)
      (fun ending => After start (Raised limits contexts ending)) := by
  have caught : ∀ (ending : Ending Value) (after : World Context Value),
      After start (Ended limits contexts ending) after →
      Ends (recover environment budget ending) after
        (fun value => After start fun later =>
          Open limits contexts later ∧ LastReply (.returned value) later)
        (fun ending => After start (Raised limits contexts ending)) := by
    rintro ending _ ⟨later, rfl, ended⟩
    unfold recover
    split
    · rename_i running
      match ending, running with
      | .unfinished, _ => exact ⟨later, rfl, ended.toOpen.guarded, .inl rfl⟩
    · rw [ends_bind]
      refine (preserves_ends respects ended).mono ?_ fun _ _ never => never.elim
      rintro kept _ ⟨latest, rfl, opened, preserved⟩
      cases kept with
      | true =>
          have outcome := And.intro opened.unfinished (preserved rfl)
          exact ⟨latest, rfl, opened.guarded, .inr (.inr outcome)⟩
      | false =>
          rw [if_neg Bool.false_ne_true, ends_bind]
          refine (discard_ends opened).mono ?_ fun _ _ never => never.elim
          rintro ⟨⟩ _ ⟨last, rfl, guarded, finished⟩
          exact ⟨last, rfl, guarded, .inr (.inl finished)⟩
  have opened : Open limits contexts ([] : List (Event Context Value)) := ⟨.nil, List.not_mem_nil⟩
  have here : start.notes [] = start := by simp [World.notes]
  have entered := @answered_ends _ _ _ _ start [] _ environment.socket opened
  have consumed := fun fileno =>
    @consume_ends _ _ environment _ _ start fileno budget [] respects turns opened
  rw [here] at entered consumed
  unfold drive
  rw [ends_tryCatch, ends_bind]
  refine entered.mono ?_ caught
  rintro fileno _ rfl
  exact (consumed fileno).mono (fun _ _ ended => ended) caught

end Drive

/-! ## Waits -/

section Waits

variable {Context Value : Type} (environment : Environment Context Value)

/-- When the inherited budget and the timeout of a call expire. -/
def World.limits (world : World Context Value) (timeout : Option ℚ) : List ℚ :=
  (world.ioBudget.map fun budget => (world.budgets budget).expires).toList ++
    (timeout.map (environment.clock world.log + ·)).toList

/-- The contexts of the inherited budget, and the current one of a call with a timeout. -/
def World.included (world : World Context Value) (timeout : Option ℚ) : List Context :=
  (world.ioBudget.map fun budget => (world.budgets budget).contexts).getD [] ++
    (timeout.bind fun _ => environment.currentContext
      (world.log ++ [.clocked (environment.clock world.log)])).toList

/-- What every wait keeps to, whichever way it goes. -/
structure BoundedWait (timeout : Option ℚ) (start after : World Context Value)
    (events : List (Event Context Value)) : Prop where
  log : after.log = start.log ++ events
  resumed : ∀ before sent later, events = before ++ .resumed sent :: later →
    ∃ left, Leaves (start.limits environment timeout) (start.included environment timeout)
      left before
  selecting : ∀ before seconds later, events = before ++ .selecting seconds :: later →
    ∃ left, Leaves (start.limits environment timeout) (start.included environment timeout)
      left before ∧ seconds ≤ min (1 / 20) left
  closed : ∀ before later, events = before ++ .closed :: later → .finished ∈ before
  inherited : ∀ budget ∈ start.ioBudget, after.budgets budget = start.budgets budget
  ioBudget : after.ioBudget = start.ioBudget

variable {environment} {timeout : Option ℚ} {limits : List ℚ} {contexts : List Context}
  {start : World Context Value}

/-- A budget for one wait, and what was read to make it. -/
structure Entered (limits : List ℚ) (contexts : List Context) (budget : Nat)
    (start after : World Context Value) : Prop where
  respects : Respects limits contexts (after.budgets budget)
  inherited : ∀ budget ∈ start.ioBudget, after.budgets budget = start.budgets budget
  ioBudget : after.ioBudget = start.ioBudget
  log : ∃ events, after.log = start.log ++ events ∧ ∀ event ∈ events, event.reads = true

theorem bounded_of_guarded {middle : World Context Value} {budget : Nat}
    (entered : Entered (start.limits environment timeout) (start.included environment timeout)
      budget start middle)
    {later : List (Event Context Value)}
    (guarded : GuardedLog (Allowed (start.limits environment timeout)
      (start.included environment timeout)) later) :
    ∃ earlier, (∀ event ∈ earlier, event.reads = true) ∧
      BoundedWait environment timeout start (middle.notes later) (earlier ++ later) := by
  obtain ⟨earlier, same, reads⟩ := entered.log
  have all := guarded.prepend (fun event listed => reads_allowed (reads event listed))
    (fun before event allowed => allowed.prepend earlier)
  refine ⟨earlier, reads, ?_, ?_, ?_, ?_, entered.inherited, entered.ioBudget⟩
  · rw [World.notes, same, List.append_assoc]
  · intro before sent rest split
    exact all.allowed_at before _ rest split
  · intro before seconds rest split
    exact all.allowed_at before _ rest split
  · intro before rest split
    exact all.allowed_at before _ rest split

theorem LastReply.prepend {reply : Reply Value} {later : List (Event Context Value)}
    (last : LastReply reply later) (earlier : List (Event Context Value)) :
    LastReply reply (earlier ++ later) := by
  obtain ⟨before, after, rfl, idle⟩ := last
  exact ⟨earlier ++ before, after, (List.append_assoc _ _ _).symm, idle⟩

theorem Preserved.prepend {ending : Ending Value} {later : List (Event Context Value)}
    (preserved : Preserved limits contexts ending later) (earlier : List (Event Context Value)) :
    Preserved limits contexts ending (earlier ++ later) := by
  obtain ⟨code, left, same, last, leaves⟩ := preserved
  exact ⟨code, left, same, last.prepend earlier, leaves.prepend earlier⟩

theorem unfinished_prepend {earlier later : List (Event Context Value)}
    (reads : ∀ event ∈ earlier, event.reads = true) (unfinished : .finished ∉ later) :
    .finished ∉ earlier ++ later := by
  intro listed
  rcases List.mem_append.mp listed with first | last
  · exact absurd (reads _ first) Bool.false_ne_true
  · exact unfinished last

/-- How a wait may end. -/
def Returned (environment : Environment Context Value) (timeout : Option ℚ)
    (start : World Context Value) (value : Value) (after : World Context Value) : Prop :=
  ∃ events, BoundedWait environment timeout start after events ∧ .finished ∉ events ∧
    LastReply (.returned value) events

def Failed (environment : Environment Context Value) (timeout : Option ℚ)
    (start : World Context Value) (ending : Ending Value) (after : World Context Value) : Prop :=
  ∃ events, BoundedWait environment timeout start after events ∧
    (ending = .unfinished ∨ .finished ∈ events ∨
      .finished ∉ events ∧ Preserved (start.limits environment timeout)
        (start.included environment timeout) ending events)

theorem entered_ends {middle : World Context Value} {budget : Nat}
    (entered : Entered (start.limits environment timeout) (start.included environment timeout)
      budget start middle) (turns : Nat) :
    Ends (drive environment turns budget) middle (Returned environment timeout start)
      (Failed environment timeout start) := by
  refine (drive_ends entered.respects turns).mono ?_ ?_
  · rintro value _ ⟨later, rfl, opened, last⟩
    obtain ⟨earlier, reads, bounded⟩ := bounded_of_guarded entered opened.guarded
    exact ⟨_, bounded, unfinished_prepend reads opened.unfinished, last.prepend earlier⟩
  · rintro ending _ ⟨later, rfl, guarded, outcome⟩
    obtain ⟨earlier, reads, bounded⟩ := bounded_of_guarded entered guarded
    refine ⟨_, bounded, outcome.imp_right (Or.imp ?_ ?_)⟩
    · exact List.mem_append_right earlier
    · rintro ⟨unfinished, preserved⟩
      exact ⟨unfinished_prepend reads unfinished, preserved.prepend earlier⟩

variable [DecidableEq Context]

theorem includeAll_ends (budget : Nat) (contexts : List Context) :
    ∀ world : World Context Value, Ends (includeAll environment budget contexts) world
      (fun _ after => Narrowed budget world after ∧ contexts ⊆ (after.budgets budget).contexts)
      (fun _ _ => False) := by
  induction contexts with
  | nil => exact fun world => ⟨.refl budget world, List.nil_subset _⟩
  | cons context rest induction =>
      intro world
      unfold includeAll
      rw [ends_bind]
      refine (includeContext_ends _ _ _).mono ?_ fun _ _ never => never
      rintro ⟨⟩ middle ⟨first, own⟩
      refine (induction middle).mono ?_ fun _ _ never => never
      rintro ⟨⟩ after ⟨second, others⟩
      exact ⟨first.trans second, List.cons_subset.mpr ⟨second.contexts (own context rfl), others⟩⟩

/-- A call's own timeout only narrows what it inherits. -/
theorem limited_ends (timeout : ℚ) (start : World Context Value) :
    Ends (limited environment timeout start.ioBudget) start
      (fun budget => Entered (start.limits environment (some timeout))
        (start.included environment (some timeout)) budget start)
      (fun _ _ => False) := by
  unfold limited
  rw [ends_bind]
  refine (create_ends timeout start).mono ?_ fun _ _ never => never
  intro budget created made
  have kept : ∀ other ∈ start.ioBudget, created.budgets other = start.budgets other := by
    intro other inherited
    refine made.others other fun same => ?_
    exact absurd (start.valid other inherited) (by rw [same, made.fresh]; exact lt_irrefl _)
  cases inherited : start.ioBudget with
  | none =>
      refine ⟨⟨?_, ?_⟩, ?_, made.ioBudget, made.log⟩
      · intro limit listed
        simp only [World.limits, inherited, Option.map_none, Option.toList_none, List.nil_append,
          Option.map_some, Option.toList_some, List.mem_singleton] at listed
        exact listed ▸ made.expires
      · intro context listed
        simp only [World.included, inherited, Option.map_none, Option.getD_none, List.nil_append,
          Option.bind_some] at listed
        exact made.contexts listed
      · exact kept
  | some parent =>
      have other : parent ≠ budget := by
        rw [made.fresh]
        exact (start.valid parent inherited).ne
      have same := kept parent inherited
      dsimp only
      rw [ends_bind, ends_contents, ends_bind, ends_contents, ends_bind, ends_set, ends_bind]
      refine (includeAll_ends _ _ _).mono ?_ fun _ _ never => never
      rintro ⟨⟩ after ⟨widened, others⟩
      have capped : Narrowed budget created (created.withBudget budget
          { created.budgets budget with
            expires := min (created.budgets budget).expires (created.budgets parent).expires }) :=
        Narrowed.set (min_le_left _ _) (List.Subset.refl _)
      have lowered := capped.trans widened
      have parental : (after.budgets budget).expires ≤ (start.budgets parent).expires := by
        refine le_trans widened.expires ?_
        simp [World.withBudget, same]
      obtain ⟨earlier, first, reads⟩ := made.log
      obtain ⟨later, second, more⟩ := lowered.log
      refine ⟨⟨?_, ?_⟩, ?_, lowered.ioBudget.trans made.ioBudget, earlier ++ later, ?_, ?_⟩
      · intro limit listed
        simp only [World.limits, inherited, Option.map_some, Option.toList_some,
          List.cons_append, List.nil_append, List.mem_cons, List.not_mem_nil, or_false] at listed
        rcases listed with rfl | rfl
        · exact parental
        · exact le_trans lowered.expires made.expires
      · intro context listed
        simp only [World.included, inherited, Option.map_some, Option.getD_some,
          Option.bind_some] at listed
        rcases List.mem_append.mp listed with old | current
        · exact others (same ▸ old)
        · exact lowered.contexts (made.contexts current)
      · intro old listed
        have different : old ≠ budget := by
          rintro rfl
          exact absurd (start.valid _ listed) (by rw [made.fresh]; exact lt_irrefl _)
        exact (lowered.others old different).trans (kept old listed)
      · rw [second, first, List.append_assoc]
      · intro event listed
        exact (List.mem_append.mp listed).elim (reads event) (more event)

/-- A wait under a budget: the generator runs and its readiness is waited for only
with time left, what is inherited stays as it is, and the transport stays open only
if the generator is known to be in step with the server. -/
theorem wait_bounded (turns : Nat) (own : ℚ → Waiting Context Value Value) (interval : ℚ)
    (timeout : Option ℚ) (start : World Context Value)
    (budgeted : start.ioBudget ≠ none ∨ timeout ≠ none) :
    Ends (wait environment turns own interval timeout) start
      (fun value after => ∃ events, BoundedWait environment timeout start after events ∧
        .finished ∉ events ∧ LastReply (.returned value) events)
      (fun ending after => ∃ events, BoundedWait environment timeout start after events ∧
        (ending = .unfinished ∨ .finished ∈ events ∨
          .finished ∉ events ∧ Preserved (start.limits environment timeout)
            (start.included environment timeout) ending events)) := by
  unfold wait
  rw [ends_bind, ends_get]
  cases given : timeout with
  | none =>
      cases inherited : start.ioBudget with
      | none => exact absurd given (budgeted.resolve_left (not_not.mpr inherited))
      | some budget =>
          have entered : Entered (start.limits environment none)
              (start.included environment none) budget start start := by
            refine ⟨⟨?_, ?_⟩, fun _ _ => rfl, rfl, [], (List.append_nil _).symm, nofun⟩
            · intro limit listed
              simp only [World.limits, inherited, Option.map_some, Option.toList_some,
                Option.map_none, Option.toList_none, List.append_nil,
                List.mem_singleton] at listed
              exact le_of_eq listed.symm
            · intro context listed
              simpa [World.included, inherited] using listed
          exact entered_ends entered turns
  | some timeout =>
      dsimp only
      rw [ends_bind]
      refine (limited_ends timeout start).mono ?_ fun _ _ never => never.elim
      intro budget middle entered
      exact entered_ends entered turns

end Waits

/-! ## A prompt answer -/

def resumptions {Context Value : Type} (log : List (Event Context Value)) : Nat :=
  log.countP fun event => event matches .resumed _

/-- Every event takes a second, and the answer is there once the socket was ready. -/
def promptly : Environment Unit String where
  clock log := 100 + log.length
  currentContext _ := some ()
  remainingSeconds _ log := some (30 - log.length)
  generator log := if resumptions log = 1 then .yielded 1 else .returned "answer"
  socket _ := some 5
  selectorFactory _ := some ()
  register _ _ _ := some ()
  modifyEvents _ _ _ := some ()
  select _ := some [1]
  exit _ := some ()
  finish _ := some ()
  close _ := some ()

def pending : World Unit String where
  budgets _ := ⟨140, []⟩
  allocated := 1
  ioBudget := some 0
  log := []
  valid := by simp

def Result.value {Error State α : Type} : EStateM.Result Error State α → Option α
  | .ok value _ => some value
  | .error _ _ => none

/-- A wait of twenty seconds, inside a budget of forty. -/
theorem promptly_bounded :
    Result.value ((wait promptly 3 (fun _ => pure "own") (1 / 10) (some 20)).run pending) =
      some "answer" ∧
    Ends (wait promptly 3 (fun _ => pure "own") (1 / 10) (some 20)) pending
      (fun value after => ∃ events, BoundedWait promptly (some 20) pending after events ∧
        .finished ∉ events ∧ LastReply (.returned value) events)
      (fun ending after => ∃ events, BoundedWait promptly (some 20) pending after events ∧
        (ending = .unfinished ∨ .finished ∈ events ∨
          .finished ∉ events ∧ Preserved (pending.limits promptly (some 20))
            (pending.included promptly (some 20)) ending events)) :=
  ⟨by decide +kernel, wait_bounded 3 _ _ (some 20) pending (.inr (Option.some_ne_none 20))⟩

end MeridianPostgreSQL.DriverWaits
