import MeridianPostgreSQL.Foundation.TransactionSoundness

/-! # Statements that change rows

A statement finds rows, locks them one after the other and changes each as it
then is. A transaction sends any number of statements, each chosen by the
answers to the earlier ones. In every interleaving the committed rows are the
ones that the statements leave when they are replayed in the order of the
commits. -/

namespace MeridianPostgreSQL.ReadCommitted

variable {Key : Type} {Row : Key → Type} {Command Failure : Type}

/-! ## Changes -/

namespace Change

variable {α : Type}

def keeps : Change α → Bool
  | .keep => true
  | _ => false

def outcome (row : Option α) : Change α → Option α
  | .keep => row
  | .put row => some row
  | .delete => none

end Change

/-! ## Statements -/

/-- What a statement does to each row that it finds. With a limit it passes
over locked rows, and stops when it has that many. If it is strict, a row that
it cannot change refuses it. -/
structure RowStatement {Key : Type} (Row : Key → Type) where
  finds : Store Row → Key → Bool
  change : (key : Key) → Option (Row key) → Change (Row key)
  limit : Option Nat
  strict : Bool

/-- A changed row. -/
structure Touch {Key : Type} (Row : Key → Type) where
  key : Key
  made : Change (Row key)

namespace RowStatement

variable (statement : RowStatement Row)

/-- `FOR UPDATE SKIP LOCKED LIMIT`: a row is tested again under its lock. -/
def lockRows : List Key → Nat → Program Row Failure (List Key)
  | [], _ => pure []
  | _, 0 => pure []
  | key :: rest, limit + 1 => do
      let locked ← Program.skipLocked key
      if locked then
        let row ← Program.selectForUpdate key
        if (statement.change key row).keeps then lockRows rest (limit + 1)
        else do
          let others ← lockRows rest limit
          pure (key :: others)
      else lockRows rest (limit + 1)

def changeRows (refused : Failure) : List Key → Program Row Failure (List (Touch Row))
  | [] => pure []
  | key :: rest => do
      let made ← Program.write key (statement.change key)
      if made.keeps then
        if statement.strict then .fail refused else changeRows refused rest
      else do
        let others ← changeRows refused rest
        pure (⟨key, made⟩ :: others)

def program (refused : Failure) : Program Row Failure (List (Touch Row)) := do
  let found ← Program.selectKeys statement.finds
  match statement.limit with
  | none => statement.changeRows refused found.2
  | some limit => do
      let keys ← statement.lockRows found.2 limit
      statement.changeRows refused keys

end RowStatement

/-! ## Transactions -/

/-- What a transaction sends, and what it makes of the answers. -/
inductive Client {Key : Type} (Command : Type) (Row : Key → Type) where
  | commit
  | send (command : Command) (next : List (Touch Row) → Client Command Row)

/-- A statement that has run. -/
structure Executed {Key : Type} (Command : Type) (Row : Key → Type) where
  command : Command
  touched : List (Touch Row)

namespace Executed

variable (executed : Executed Command Row) (key : Key)

def Touches : Prop := key ∈ executed.touched.map Touch.key

def Removes : Prop := (⟨key, .delete⟩ : Touch Row) ∈ executed.touched

end Executed

namespace Client

def program (meaning : Command → RowStatement Row) (refused : Failure) :
    Client Command Row → Program Row Failure (List (Executed Command Row))
  | .commit => pure []
  | .send command next => do
      let touched ← (meaning command).program refused
      let rest ← (next touched).program meaning refused
      pure (⟨command, touched⟩ :: rest)

/-- Every statement that the transaction may send is allowed. -/
def Sends (allowed : Command → Prop) : Client Command Row → Prop
  | .commit => True
  | .send command next => allowed command ∧ ∀ touched, (next touched).Sends allowed

end Client

/-! ## Replays -/

/-- The rows changed as they were, and the other rows stay. -/
structure Alters (statement : RowStatement Row) (touched : List (Touch Row))
    (before after : Store Row) : Prop where
  made : ∀ touch ∈ touched,
    touch.made = statement.change touch.key (before touch.key) ∧ touch.made.keeps = false
  written : ∀ touch ∈ touched, after touch.key = touch.made.outcome (before touch.key)
  others : ∀ key, key ∉ touched.map Touch.key → after key = before key

/-- A statement that runs alone. It may miss rows that come to match while it
runs. -/
structure Performs (statement : RowStatement Row) (touched : List (Touch Row))
    (before after : Store Row) : Prop extends Alters statement touched before after where
  distinct : (touched.map Touch.key).Nodup
  bounded : ∀ limit, statement.limit = some limit → touched.length ≤ limit
  found : ∀ touch ∈ touched, ∃ store, statement.finds store touch.key = true

inductive Replays (meaning : Command → RowStatement Row) :
    List (Executed Command Row) → Store Row → Store Row → Prop
  | nil {store} : Replays meaning [] store store
  | cons {executed rest before middle after}
      (performs : Performs (meaning executed.command) executed.touched before middle)
      (replays : Replays meaning rest middle after) :
      Replays meaning (executed :: rest) before after

namespace Replays

variable {meaning : Command → RowStatement Row} {before middle after : Store Row}
  {first second : List (Executed Command Row)}

theorem append (replays : Replays meaning first before middle)
    (more : Replays meaning second middle after) :
    Replays meaning (first ++ second) before after := by
  induction replays with
  | nil => exact more
  | cons performs _ induction => exact .cons performs (induction more)

theorem split (replays : Replays meaning (first ++ second) before after) :
    ∃ middle, Replays meaning first before middle ∧ Replays meaning second middle after := by
  induction first generalizing before with
  | nil => exact ⟨before, .nil, replays⟩
  | cons executed first induction =>
      cases replays with
      | cons performs rest =>
          rcases induction rest with ⟨middle, front, back⟩
          exact ⟨middle, .cons performs front, back⟩

/-- A property of one row that every statement keeps. -/
theorem row_induction {key : Key} (property : Option (Row key) → Prop)
    (replays : Replays meaning first before after)
    (kept : ∀ executed ∈ first, ∀ {left right : Store Row},
      Performs (meaning executed.command) executed.touched left right →
      property (left key) → property (right key))
    (holds : property (before key)) : property (after key) := by
  induction replays with
  | nil => exact holds
  | cons performs _ induction =>
      exact induction (fun executed member => kept executed (.tail _ member))
        (kept _ (.head _) performs holds)

/-- A row that no statement changes stays. -/
theorem untouched {key : Key} (replays : Replays meaning first before after)
    (spared : ∀ executed ∈ first, ¬ executed.Touches key) :
    after key = before key := by
  apply replays.row_induction (fun row => row = before key) _ rfl
  intro executed member left right performs same
  rw [performs.others key (spared executed member), same]

/-- The states around two statements of a replay. -/
theorem around {earlier between later : List (Executed Command Row)}
    {one two : Executed Command Row}
    (replays : Replays meaning (earlier ++ one :: (between ++ two :: later)) before after) :
    ∃ atOne afterOne atTwo afterTwo,
      Performs (meaning one.command) one.touched atOne afterOne ∧
      Replays meaning between afterOne atTwo ∧
      Performs (meaning two.command) two.touched atTwo afterTwo := by
  rcases replays.split with ⟨atOne, _, rest⟩
  cases rest with
  | cons first rest =>
      rcases rest.split with ⟨atTwo, middle, rest⟩
      cases rest with
      | cons second _ => exact ⟨_, _, _, _, first, middle, second⟩

end Replays

end MeridianPostgreSQL.ReadCommitted
