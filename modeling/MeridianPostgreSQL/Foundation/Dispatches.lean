import MeridianPostgreSQL.Foundation.Exceptions

/-! # Programs that talk to a server

A program sends commands over one connection and learns the answer to each
before it goes on. What a server answers depends on all the connection was
sent, so a setting that was sent earlier can change how it treats a command. -/

namespace MeridianPostgreSQL.Dispatches

variable {Command Reply Error α β : Type}

/-- The answer to the last of the commands that a connection was sent. -/
abbrev Responder (Command Reply Error : Type) := List Command → Except Error Reply

/-- The state is what the connection was sent. -/
abbrev Sender (Command Error α : Type) := EStateM Error (List Command) α

def send (server : Responder Command Reply Error) (command : Command) :
    Sender Command Error Reply := fun history =>
  match server (history ++ [command]) with
  | .ok reply => .ok reply (history ++ [command])
  | .error error => .error error (history ++ [command])

/-- A condition on what a connection was sent, which the allowed commands keep. -/
structure Mode {Command : Type} (allowed : Command → Prop) where
  Holds : List Command → Prop
  lasts : ∀ history command, Holds history → allowed command → Holds (history ++ [command])

def Mode.any {allowed : Command → Prop} : Mode allowed := ⟨fun _ => True, fun _ _ _ _ => trivial⟩

/-- Nothing but allowed commands was sent after the first ones. -/
def Mode.since (first : List Command) (allowed : Command → Prop) : Mode allowed where
  Holds := fun history => ∃ later, history = first ++ later ∧ ∀ command ∈ later, allowed command
  lasts := by
    rintro _ command ⟨later, rfl, sent⟩ permitted
    refine ⟨later ++ [command], List.append_assoc first later [command], ?_⟩
    intro other listed
    rcases List.mem_append.mp listed with inside | last
    · exact sent other inside
    · exact List.mem_singleton.mp last ▸ permitted

/-! ## What was sent -/

/-- Between two states only allowed commands were sent. -/
def Sent (allowed : Command → Prop) (before after : List Command) : Prop :=
  ∃ commands, after = before ++ commands ∧ ∀ command ∈ commands, allowed command

namespace Sent

variable {allowed : Command → Prop} {before middle after : List Command}

theorem refl : Sent allowed before before :=
  ⟨[], (List.append_nil before).symm, fun _ listed => nomatch listed⟩

theorem trans (first : Sent allowed before middle) (second : Sent allowed middle after) :
    Sent allowed before after := by
  obtain ⟨earlier, rfl, allowedEarlier⟩ := first
  obtain ⟨later, rfl, allowedLater⟩ := second
  refine ⟨earlier ++ later, List.append_assoc before earlier later, ?_⟩
  intro command listed
  cases List.mem_append.mp listed with
  | inl inside => exact allowedEarlier command inside
  | inr inside => exact allowedLater command inside

theorem one {command : Command} (permitted : allowed command) :
    Sent allowed before (before ++ [command]) :=
  ⟨[command], rfl, fun _ listed => List.mem_singleton.mp listed ▸ permitted⟩

theorem mono {permitted : Command → Prop} (sent : Sent allowed before after)
    (implies : ∀ command, allowed command → permitted command) :
    Sent permitted before after := by
  obtain ⟨commands, rfl, held⟩ := sent
  exact ⟨commands, rfl, fun command listed => implies command (held command listed)⟩

theorem keeps (mode : Mode allowed) (sent : Sent allowed before after)
    (holds : mode.Holds before) : mode.Holds after := by
  obtain ⟨commands, rfl, permitted⟩ := sent
  induction commands generalizing before with
  | nil => simpa using holds
  | cons command rest induction =>
      rw [show before ++ command :: rest = (before ++ [command]) ++ rest by simp]
      exact induction (mode.lasts before command holds (permitted command List.mem_cons_self))
        fun other listed => permitted other (List.mem_cons_of_mem command listed)

end Sent

/-! ## Rules -/

/-- From a connection in the mode, a program sends allowed commands only. -/
def Sends {allowed : Command → Prop} (mode : Mode allowed)
    (program : Sender Command Error α) : Prop :=
  ∀ before, mode.Holds before →
    Ends program before (fun _ => Sent allowed before) (fun _ => Sent allowed before)

/-- From a connection in the mode, a program raises. -/
def Raises {allowed : Command → Prop} (mode : Mode allowed)
    (program : Sender Command Error α) : Prop :=
  ∀ before, mode.Holds before → Ends program before (fun _ _ => False) (fun _ _ => True)

section Rules

variable {allowed : Command → Prop} {mode : Mode allowed}
  {server : Responder Command Reply Error} {program : Sender Command Error α}
  {next : α → Sender Command Error β}

theorem ends_send {command : Command} {before : List Command}
    {returned : Reply → List Command → Prop} {raised : Error → List Command → Prop} :
    Ends (send server command) before returned raised ↔
      match server (before ++ [command]) with
      | .ok reply => returned reply (before ++ [command])
      | .error error => raised error (before ++ [command]) := by
  simp only [Ends, EStateM.run, send]
  cases server (before ++ [command]) <;> rfl

theorem sends_pure {result : α} :
    Sends mode (pure result : Sender Command Error α) := fun _ _ => Sent.refl

theorem sends_throw {error : Error} :
    Sends mode (throw error : Sender Command Error α) := fun _ _ => Sent.refl

theorem sends_send {command : Command} (permitted : allowed command) :
    Sends mode (send server command) := by
  intro before _
  apply ends_send.mpr
  cases server (before ++ [command]) with
  | ok reply => exact Sent.one permitted
  | error error => exact Sent.one permitted

theorem sends_bind (first : Sends mode program)
    (second : ∀ result, Sends mode (next result)) :
    Sends mode (program >>= next) := by
  intro before holds
  apply ends_bind.mpr
  apply (first before holds).mono
  · intro result middle sent
    apply (second result middle (sent.keeps mode holds)).mono
    · exact fun _ _ later => sent.trans later
    · exact fun _ _ later => sent.trans later
  · exact fun _ _ sent => sent

theorem sends_tryCatch {handler : Error → Sender Command Error α}
    (body : Sends mode program) (handled : ∀ error, Sends mode (handler error)) :
    Sends mode (tryCatch program handler) := by
  intro before holds
  apply ends_tryCatch.mpr
  apply (body before holds).mono
  · exact fun _ _ sent => sent
  · intro error middle sent
    apply (handled error middle (sent.keeps mode holds)).mono
    · exact fun _ _ later => sent.trans later
    · exact fun _ _ later => sent.trans later

theorem sends_forM {items : List β} {each : β → Sender Command Error PUnit}
    (sends : ∀ item ∈ items, Sends mode (each item)) :
    Sends mode (items.forM each) := by
  induction items with
  | nil => exact sends_pure
  | cons item rest induction =>
      apply sends_bind (sends item List.mem_cons_self)
      exact fun _ => induction fun other listed => sends other (List.mem_cons_of_mem item listed)

theorem raises_throw {error : Error} :
    Raises mode (throw error : Sender Command Error α) := fun _ _ => trivial

theorem raises_send {command : Command}
    (refuses : ∀ history, mode.Holds history →
      ∃ error, server (history ++ [command]) = .error error) :
    Raises mode (send server command) := by
  intro before holds
  obtain ⟨error, refused⟩ := refuses before holds
  apply ends_send.mpr
  rw [refused]
  trivial

theorem raises_bind (first : Raises mode program) : Raises mode (program >>= next) := by
  intro before holds
  apply ends_bind.mpr
  exact (first before holds).mono (fun _ _ impossible => impossible.elim) fun _ _ _ => trivial

/-- The rest of a program raises, whatever the first part returns. -/
theorem raises_after (first : Sends mode program)
    (second : ∀ result, Raises mode (next result)) : Raises mode (program >>= next) := by
  intro before holds
  apply ends_bind.mpr
  apply (first before holds).mono
  · exact fun result middle sent => second result middle (sent.keeps mode holds)
  · exact fun _ _ _ => trivial

theorem raises_tryCatch {handler : Error → Sender Command Error α}
    (sends : Sends mode program) (body : Raises mode program)
    (handled : ∀ error, Raises mode (handler error)) :
    Raises mode (tryCatch program handler) := by
  intro before holds
  apply ends_tryCatch.mpr
  have sent := sends before holds
  have raised := body before holds
  unfold Ends at sent raised ⊢
  cases equal : program.run before with
  | ok result after => rw [equal] at raised; exact raised.elim
  | error error after =>
      rw [equal] at sent
      exact handled error after (sent.keeps mode holds)

/-- Nothing is sent past the point where a program raises. -/
theorem sends_raised (first : Sends mode program) (raises : Raises mode program) :
    Sends mode (program >>= next) := by
  intro before holds
  apply ends_bind.mpr
  have sent := first before holds
  have raised := raises before holds
  unfold Ends at sent raised ⊢
  cases equal : program.run before with
  | ok result after => rw [equal] at raised; exact raised.elim
  | error error after => rw [equal] at sent; exact sent

end Rules

/-! ## Transactions -/

section Transactions

variable (server : Responder Command Reply Error) (opening closing undoing : Command)

/-- An error of the command that undoes a transaction is not reported. -/
def rollback : Sender Command Error Unit :=
  tryCatch (do let _ ← send server undoing; pure ()) fun _ => pure ()

/-- A body between the commands that open and close a transaction. -/
def transaction (body : Sender Command Error α) : Sender Command Error α := do
  let _ ← send server opening
  let result ← tryCatch body fun error => do
    rollback server undoing
    throw error
  let _ ← send server closing
  pure result

variable {server opening closing undoing} {allowed : Command → Prop} {mode : Mode allowed}
  {body : Sender Command Error α}

theorem sends_undo (undo : allowed undoing) : Sends mode (rollback server undoing) := by
  apply sends_tryCatch
  · exact sends_bind (sends_send undo) fun _ => sends_pure
  · exact fun _ => sends_pure

theorem sends_transaction (opened : allowed opening) (closed : allowed closing)
    (undo : allowed undoing) (sends : Sends mode body) :
    Sends mode (transaction server opening closing undoing body) := by
  apply sends_bind (sends_send opened)
  intro _
  apply sends_bind (sends_tryCatch sends fun _ => sends_bind (sends_undo undo) fun _ => sends_throw)
  intro result
  exact sends_bind (sends_send closed) fun _ => sends_pure

theorem raises_transaction (opened : allowed opening) (undo : allowed undoing)
    (sends : Sends mode body) (raises : Raises mode body) :
    Raises mode (transaction server opening closing undoing body) := by
  apply raises_after (sends_send opened)
  intro _
  apply raises_bind
  apply raises_tryCatch sends raises
  intro error
  exact raises_after (sends_undo undo) fun _ => raises_throw

end Transactions

end MeridianPostgreSQL.Dispatches
