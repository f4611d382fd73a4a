import MeridianPostgreSQL.Foundation.TransactionSoundness

/-! # Transactions alone on the server

What every run of a program does while no other transaction is open and the
server's clock does not go back. -/

namespace MeridianPostgreSQL.ReadCommitted

variable {Key : Type} [DecidableEq Key] {Row : Key → Type} {Failure Result α β : Type}

/-! ## Runs -/

/-- One statement of a transaction that is alone, and the server's clock. -/
inductive SoloStatement (rows : Store Row) :
    Int × Transaction Row Failure Result → Int × Transaction Row Failure Result → Prop
  | clock (instant reading : Int) (workspace : Workspace Row)
      (next : Int → Program Row Failure Result) (later : instant ≤ reading) :
      SoloStatement rows (instant, ⟨workspace, .clock next⟩) (reading, ⟨workspace, next reading⟩)
  | other (instant : Int) (before after : Transaction Row Failure Result)
      (timeless : ∀ next, before.program ≠ .clock next) (sent : Statement rows ∅ before after) :
      SoloStatement rows (instant, before) (instant, after)

/-- Every run of the transaction ends: it finishes in `post` or fails in
`failed`. -/
inductive SoloEnds (rows : Store Row) (post : Result → Int → Workspace Row → Prop)
    (failed : Failure → Int → Prop) : Int × Transaction Row Failure Result → Prop
  | finish (instant : Int) (workspace : Workspace Row) (result : Result)
      (holds : post result instant workspace) :
      SoloEnds rows post failed (instant, ⟨workspace, .finish result⟩)
  | fail (instant : Int) (workspace : Workspace Row) (failure : Failure)
      (holds : failed failure instant) :
      SoloEnds rows post failed (instant, ⟨workspace, .fail failure⟩)
  | later (before : Int × Transaction Row Failure Result)
      (proceeds : ∃ after, SoloStatement rows before after)
      (ends : ∀ after, SoloStatement rows before after → SoloEnds rows post failed after) :
      SoloEnds rows post failed before

/-- A statement that does not read the clock leads to what ends. -/
theorem SoloEnds.untimed {rows : Store Row} {post : Result → Int → Workspace Row → Prop}
    {failed : Failure → Int → Prop} {instant : Int}
    {before after : Transaction Row Failure Result}
    (timeless : ∀ next, before.program ≠ .clock next) (sent : Statement rows ∅ before after)
    (ends : ∀ after, Statement rows ∅ before after → SoloEnds rows post failed (instant, after)) :
    SoloEnds rows post failed (instant, before) := by
  refine .later _ ⟨_, .other instant before after timeless sent⟩ fun after sent => ?_
  cases sent with
  | clock _ _ _ next _ => exact absurd rfl (timeless next)
  | other _ _ _ _ sent => exact ends _ sent

/-! ## Weakest preconditions -/

/-- Every run of the program alone, from this instant of the clock, finishes in
`post` or fails in `failed`. -/
def Program.Alone (program : Program Row Failure α) (rows : Store Row)
    (post : α → Int → Workspace Row → Prop) (failed : Failure → Int → Prop)
    (instant : Int) (workspace : Workspace Row) : Prop :=
  match program with
  | .finish result => post result instant workspace
  | .fail failure => failed failure instant
  | .clock next => ∀ reading, instant ≤ reading →
      (next reading).Alone rows post failed reading workspace
  | .refuse next => ∀ refused, (next refused).Alone rows post failed instant workspace
  | .read next =>
      (next (overlay workspace.writes rows)).Alone rows post failed instant workspace
  | .scan wanted next =>
      (∃ keys : List Key, keys.Nodup ∧
        ∀ key, key ∈ keys ↔ wanted (overlay workspace.writes rows) key = true) ∧
      ∀ keys : List Key, keys.Nodup →
        (∀ key, key ∈ keys ↔ wanted (overlay workspace.writes rows) key = true) →
        (next (overlay workspace.writes rows) keys).Alone rows post failed instant workspace
  | .lock key next =>
      (next (overlay workspace.writes rows key)).Alone rows post failed instant
        (workspace.lockRow key (overlay workspace.writes rows key))
  | .lockSkipLocked key next => (next true).Alone rows post failed instant
      { workspace with locks := insert key workspace.locks }
  | .modify key change next =>
      (next (change (overlay workspace.writes rows key))).Alone rows post failed instant
        (workspace.record key (change (overlay workspace.writes rows key)))
  | .savepoint next => next.Alone rows post failed instant
      { workspace with saved := (workspace.writes, workspace.locks) :: workspace.saved }
  | .rollbackTo next =>
      match workspace.saved with
      | [] => False
      | (writes, locks) :: saved => next.Alone rows post failed instant ⟨writes, locks, saved⟩
  | .release next =>
      match workspace.saved with
      | [] => False
      | _ :: saved => next.Alone rows post failed instant { workspace with saved := saved }

namespace Program

variable {rows : Store Row} {instant : Int} {workspace : Workspace Row}

theorem alone_bind {program : Program Row Failure α} {next : α → Program Row Failure β}
    {post : β → Int → Workspace Row → Prop} {failed : Failure → Int → Prop} :
    (program >>= next).Alone rows post failed instant workspace ↔
      program.Alone rows (fun result => (next result).Alone rows post failed) failed instant
        workspace := by
  change (program.handle next .fail).Alone rows post failed instant workspace ↔ _
  induction program generalizing instant workspace with
  | finish | fail => exact Iff.rfl
  | clock next induction => exact forall₂_congr fun reading _ => induction reading
  | refuse next induction => exact forall_congr' fun refused => induction refused
  | read next induction | lock key next induction | modify key change next induction =>
      exact induction _
  | scan wanted next induction =>
      exact and_congr_right fun _ => forall₃_congr fun keys _ _ => induction _ keys
  | lockSkipLocked key next induction => exact induction true
  | savepoint next induction => exact induction
  | rollbackTo next induction | release next induction =>
      simp only [handle, Alone]
      cases workspace.saved with
      | nil => exact Iff.rfl
      | cons entry saved => exact induction

theorem Alone.mono {program : Program Row Failure α}
    {post post' : α → Int → Workspace Row → Prop} {failed failed' : Failure → Int → Prop}
    (alone : program.Alone rows post failed instant workspace)
    (finished : ∀ result later after, post result later after → post' result later after)
    (fallen : ∀ failure later, failed failure later → failed' failure later) :
    program.Alone rows post' failed' instant workspace := by
  induction program generalizing instant workspace with
  | finish result => exact finished _ _ _ alone
  | fail failure => exact fallen _ _ alone
  | clock next induction => exact fun reading after => induction reading (alone reading after)
  | refuse next induction => exact fun refused => induction refused (alone refused)
  | read next induction | lock key next induction | modify key change next induction =>
      exact induction _ alone
  | scan wanted next induction =>
      exact ⟨alone.1, fun keys nodup complete => induction _ keys (alone.2 keys nodup complete)⟩
  | lockSkipLocked key next induction => exact induction true alone
  | savepoint next induction => exact induction alone
  | rollbackTo next induction | release next induction =>
      simp only [Alone] at alone ⊢
      cases saved : workspace.saved with
      | nil => simp [saved] at alone
      | cons entry rest =>
          rw [saved] at alone
          exact induction alone

section Rules

variable {failed : Failure → Int → Prop}

@[simp] theorem alone_pure {result : α} {post : α → Int → Workspace Row → Prop} :
    (pure result : Program Row Failure α).Alone rows post failed instant workspace ↔
      post result instant workspace :=
  Iff.rfl

theorem alone_select {post : Store Row → Int → Workspace Row → Prop} :
    (select : Program Row Failure (Store Row)).Alone rows post failed instant workspace ↔
      post (overlay workspace.writes rows) instant workspace :=
  Iff.rfl

theorem alone_selectForUpdate {key : Key}
    {post : Option (Row key) → Int → Workspace Row → Prop} :
    (selectForUpdate key : Program Row Failure _).Alone rows post failed instant workspace ↔
      post (overlay workspace.writes rows key) instant
        (workspace.lockRow key (overlay workspace.writes rows key)) :=
  Iff.rfl

theorem alone_skipLocked {key : Key} {post : Bool → Int → Workspace Row → Prop} :
    (skipLocked key : Program Row Failure Bool).Alone rows post failed instant workspace ↔
      post true instant { workspace with locks := insert key workspace.locks } :=
  Iff.rfl

theorem alone_write {key : Key} {change : Option (Row key) → Change (Row key)}
    {post : Change (Row key) → Int → Workspace Row → Prop} :
    (write key change : Program Row Failure _).Alone rows post failed instant workspace ↔
      post (change (overlay workspace.writes rows key)) instant
        (workspace.record key (change (overlay workspace.writes rows key))) :=
  Iff.rfl

end Rules

/-- The precondition says what every run does. -/
theorem Alone.ends {program : Program Row Failure Result}
    {post : Result → Int → Workspace Row → Prop} {failed : Failure → Int → Prop}
    (alone : program.Alone rows post failed instant workspace) :
    SoloEnds rows post failed (instant, ⟨workspace, program⟩) := by
  have free : ∀ key : Key, key ∉ (∅ : Set Key) := Set.notMem_empty
  induction program generalizing instant workspace with
  | finish result => exact .finish instant workspace result alone
  | fail failure => exact .fail instant workspace failure alone
  | clock next induction =>
      refine .later _ ⟨_, .clock instant instant workspace next le_rfl⟩ fun after sent => ?_
      cases sent with
      | clock _ reading _ _ later => exact induction reading (alone reading later)
      | other _ _ _ timeless _ => exact absurd rfl (timeless next)
  | refuse next induction =>
      refine .untimed (fun _ same => by cases same) (.refuse workspace next false) ?_
      rintro after ⟨⟩
      exact induction _ (alone _)
  | read next induction =>
      refine .untimed (fun _ same => by cases same) (.read workspace next) ?_
      rintro after ⟨⟩
      exact induction _ alone
  | scan wanted next induction =>
      obtain ⟨keys, nodup, complete⟩ := alone.1
      refine .untimed (fun _ same => by cases same)
        (.scan workspace wanted next keys nodup complete) fun after sent => ?_
      cases sent with
      | scan _ _ _ keys nodup complete => exact induction _ keys (alone.2 keys nodup complete)
  | lock key next induction =>
      refine .untimed (fun _ same => by cases same) (.lock workspace key next (free key)) ?_
      rintro after ⟨⟩
      exact induction _ alone
  | lockSkipLocked key next induction =>
      refine .untimed (fun _ same => by cases same)
        (.lockTaken workspace key next (free key)) fun after sent => ?_
      cases sent with
      | lockSkipped _ _ _ taken => exact absurd taken (free key)
      | lockTaken => exact induction true alone
  | modify key change next induction =>
      refine .untimed (fun _ same => by cases same)
        (.modify workspace key change next (free key)) ?_
      rintro after ⟨⟩
      exact induction _ alone
  | savepoint next induction =>
      refine .untimed (fun _ same => by cases same) (.savepoint workspace next) ?_
      rintro after ⟨⟩
      exact induction alone
  | rollbackTo next induction =>
      simp only [Alone] at alone
      cases outer : workspace.saved with
      | nil => simp [outer] at alone
      | cons entry rest =>
          rw [outer] at alone
          refine .untimed (fun _ same => by cases same)
            (.rollbackTo workspace entry.1 entry.2 rest next outer) fun after sent => ?_
          cases sent with
          | rollbackTo _ writes locks saved _ found =>
              cases outer.symm.trans found
              exact induction alone
  | release next induction =>
      simp only [Alone] at alone
      cases outer : workspace.saved with
      | nil => simp [outer] at alone
      | cons entry rest =>
          rw [outer] at alone
          refine .untimed (fun _ same => by cases same)
            (.release workspace entry rest next outer) fun after sent => ?_
          cases sent with
          | release _ _ saved _ found =>
              cases outer.symm.trans found
              exact induction alone

end Program

end MeridianPostgreSQL.ReadCommitted
