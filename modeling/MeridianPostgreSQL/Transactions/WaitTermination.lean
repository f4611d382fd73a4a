import MeridianPostgreSQL.Transactions.DriverWaits

/-! # Waits come to an end

A wait under a budget ends once the clock passes one of its limits: every turn of
its loop reads the clock, and no step of it takes a turn without an event. -/

namespace MeridianPostgreSQL.DriverWaits

variable {Context Value : Type} {environment : Environment Context Value} {limit : ℚ}
  {fileno budget bound : Nat}

/-- Once so much has happened, the clock has passed the limit. -/
def Passes (environment : Environment Context Value) (limit : ℚ) (bound : Nat) : Prop :=
  ∀ log, bound ≤ log.length → limit ≤ environment.clock log

/-- The generator does not use up the turns. -/
theorem resume_finishes (sent : Option Nat) (world : World Context Value) :
    Ends (resume environment sent) world
      (fun _ after => ∃ latest, after = world.notes latest)
      (fun ending _ => ending ≠ .unfinished) := by
  unfold resume
  rw [ends_bind, ends_note, ends_bind, ends_ask, ends_bind, ends_note, notes_notes]
  generalize environment.generator _ = reply
  cases reply with
  | yielded state => exact ⟨_, rfl⟩
  | returned value => exact nofun
  | raised error => exact nofun

theorem withSelector_finishes {body : Waiting Context Value Empty} {world : World Context Value}
    (ends : Ends body world (fun _ _ => False) (fun ending _ => ending ≠ .unfinished)) :
    Ends (withSelector environment body) world (fun _ _ => False)
      (fun ending _ => ending ≠ .unfinished) := by
  unfold withSelector
  rw [ends_bind]
  refine ends_answered (fun _ => ?_) nofun
  rw [ends_tryCatch]
  refine ends.mono (fun _ _ never => never) ?_
  intro ending after finishes
  split
  · exact finishes
  · rw [ends_bind]
    exact ends_answered (fun _ => finishes) nofun

section Passing

variable (passes : Passes environment limit bound)

include passes

theorem remaining_passes (world : World Context Value)
    (expires : (world.budgets budget).expires ≤ limit) :
    Ends (OperationBudget.remaining environment budget) world
      (fun _ after => world.log.length < bound ∧
        ∃ event more, after = world.notes (event :: more))
      (fun ending _ => ending = .error expired) := by
  unfold OperationBudget.remaining
  rw [ends_bind, ends_contents, ends_bind, ends_monotonic, ends_bind]
  refine (narrowed_ends _ _ _).mono ?_ fun _ _ never => never.elim
  rintro left _ ⟨least, answers, rfl, _⟩
  split
  · rfl
  · rename_i live
    refine ⟨Nat.lt_of_not_le fun late => ?_, _, _, notes_notes _ _⟩
    exact live (le_trans least (sub_nonpos.mpr (le_trans expires (passes _ late))))

/-- Every turn leaves an event, and after enough of them no time is left. -/
theorem poll_passes (turns : Nat) :
    ∀ (state : Nat) (world : World Context Value), (world.budgets budget).expires ≤ limit →
      0 < turns → bound < world.log.length + turns →
      Ends (poll environment fileno budget turns state) world
        (fun _ _ => False) (fun ending _ => ending ≠ .unfinished) := by
  induction turns with
  | zero => exact fun _ _ _ positive => absurd positive (lt_irrefl 0)
  | succ turns induction =>
      intro state world expires _ enough
      unfold poll
      rw [ends_bind]
      refine (remaining_passes passes world expires).mono ?_ ?_
      · rintro left _ ⟨early, event, more, rfl⟩
        have turn : ∀ (nextState : Nat) (latest : List (Event Context Value)), latest ≠ [] →
            Ends (poll environment fileno budget turns nextState) (world.notes latest)
              (fun _ _ => False) (fun ending _ => ending ≠ .unfinished) := by
          intro nextState latest nonempty
          have grows := List.length_pos_of_ne_nil nonempty
          refine induction nextState (world.notes latest) expires (by omega) ?_
          rw [World.notes, List.length_append]
          omega
        unfold selectFor
        rw [ends_bind, ends_bind, ends_note, notes_notes]
        refine ends_answered ?_ (by simp)
        intro ready
        rw [ends_bind]
        refine (remaining_passes passes (world.notes _) expires).mono ?_ ?_
        · rintro _ _ ⟨_, next, later, rfl⟩
          rw [ends_bind]
          refine (resume_finishes _ _).mono ?_ fun _ _ finishes => finishes
          rintro nextState _ ⟨latest, rfl⟩
          simp only [notes_notes]
          split
          · rw [ends_bind]
            exact ends_answered (fun _ => turn nextState _ (by simp)) (by simp)
          · exact turn nextState _ (by simp)
        · rintro _ _ rfl
          simp [expired]
      · rintro _ _ rfl
        simp [expired]

theorem consume_passes {turns : Nat} (enough : bound < turns) (world : World Context Value)
    (expires : (world.budgets budget).expires ≤ limit) :
    Ends (consume environment turns fileno budget) world
      (fun _ _ => True) (fun ending _ => ending ≠ .unfinished) := by
  have caught : ∀ (ending : Ending Value) (after : World Context Value), ending ≠ .unfinished →
      Ends (stopped ending) after (fun _ _ => True) (fun ending _ => ending ≠ .unfinished) := by
    intro ending after finishes
    cases ending with
    | stopIteration value => exact trivial
    | error error => exact nofun
    | unfinished => exact absurd rfl finishes
  unfold consume
  rw [ends_bind]
  refine (remaining_passes passes world expires).mono ?_ ?_
  · rintro left _ ⟨_, event, more, rfl⟩
    rw [ends_tryCatch, ends_bind]
    refine (resume_finishes none _).mono ?_ caught
    rintro state _ ⟨latest, rfl⟩
    rw [ends_bind]
    refine (withSelector_finishes ?_).mono nofun caught
    rw [ends_bind]
    refine ends_answered (fun _ => ?_) nofun
    rw [notes_notes]
    exact poll_passes passes turns state (world.notes _) expires (by omega) (by omega)
  · rintro _ _ rfl
    exact nofun

theorem drive_passes {turns : Nat} (enough : bound < turns) (world : World Context Value)
    (expires : (world.budgets budget).expires ≤ limit) :
    Ends (drive environment turns budget) world
      (fun _ _ => True) (fun ending _ => ending ≠ .unfinished) := by
  have caught : ∀ (ending : Ending Value) (after : World Context Value), ending ≠ .unfinished →
      Ends (recover environment budget ending) after
        (fun _ _ => True) (fun ending _ => ending ≠ .unfinished) := by
    intro ending after finishes
    unfold recover
    split
    · exact finishes
    · rw [ends_bind]
      have decided : Ends (preserves environment budget ending) after
          (fun _ _ => True) (fun _ _ => False) := by
        unfold preserves
        split
        · rw [ends_tryCatch, ends_bind]
          have free := @Respects.mk _ [] [] (after.budgets budget) nofun (List.nil_subset _)
          refine (remaining_ends free).mono (fun _ _ _ => trivial) ?_
          rintro _ _ ⟨rfl, _⟩
          exact trivial
        · exact trivial
      refine decided.mono ?_ fun _ _ never => never.elim
      intro kept later _
      cases kept with
      | true => exact finishes
      | false =>
          rw [if_neg Bool.false_ne_true, ends_bind]
          unfold discard
          rw [ends_bind]
          refine (suppress_ends _ _ _).mono (fun _ _ _ => ?_) fun _ _ never => never.elim
          exact (suppress_ends _ _ _).mono (fun _ _ _ => finishes) fun _ _ never => never.elim
  unfold drive
  rw [ends_tryCatch, ends_bind]
  refine ends_answered (fun fileno => ?_) (caught _ _ nofun)
  exact (consume_passes passes enough world expires).mono (fun _ _ done => done) caught

end Passing

/-- A wait ends once the clock passes one of its limits, whatever the generator and
the selector do. -/
theorem wait_finishes [DecidableEq Context] {timeout : Option ℚ} {start : World Context Value}
    (listed : limit ∈ start.limits environment timeout)
    (passes : Passes environment limit bound) {turns : Nat} (enough : bound < turns)
    (own : ℚ → Waiting Context Value Value) (interval : ℚ) :
    Ends (wait environment turns own interval timeout) start
      (fun _ _ => True) (fun ending _ => ending ≠ .unfinished) := by
  unfold wait
  rw [ends_bind, ends_get]
  cases timeout with
  | none =>
      cases inherited : start.ioBudget with
      | none => simp [World.limits, inherited] at listed
      | some budget =>
          have same : limit = (start.budgets budget).expires := by
            simpa [World.limits, inherited] using listed
          exact drive_passes passes enough start (le_of_eq same.symm)
  | some timeout =>
      dsimp only
      rw [ends_bind]
      refine (limited_ends timeout start).mono ?_ fun _ _ never => never.elim
      intro budget middle entered
      exact drive_passes passes enough middle (entered.respects.limits limit listed)

end MeridianPostgreSQL.DriverWaits
