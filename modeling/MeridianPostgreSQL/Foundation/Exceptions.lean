import Mathlib.Logic.Basic

/-! # Actions that raise

How an action ends from a state, by rules for each way to combine actions. A
raised error keeps the state it was raised in. -/

namespace MeridianPostgreSQL

universe u

variable {Error State α β : Type u}

/-- The action returns in one condition or raises in another. -/
def Ends (action : EStateM Error State α) (state : State)
    (returned : α → State → Prop) (raised : Error → State → Prop) : Prop :=
  match action.run state with
  | .ok result after => returned result after
  | .error error after => raised error after

section Rules

variable {state : State} {returned : α → State → Prop} {raised : Error → State → Prop}

@[simp] theorem ends_pure {result : α} :
    Ends (pure result : EStateM Error State α) state returned raised ↔
      returned result state := Iff.rfl

@[simp] theorem ends_throw {error : Error} :
    Ends (throw error : EStateM Error State α) state returned raised ↔
      raised error state := Iff.rfl

@[simp] theorem ends_get {returned : State → State → Prop} :
    Ends (get : EStateM Error State State) state returned raised ↔
      returned state state := Iff.rfl

@[simp] theorem ends_modify {change : State → State} {returned : PUnit → State → Prop} :
    Ends (modify change : EStateM Error State PUnit) state returned raised ↔
      returned ⟨⟩ (change state) := Iff.rfl

theorem ends_bind {action : EStateM Error State α} {next : α → EStateM Error State β}
    {returned : β → State → Prop} :
    Ends (action >>= next) state returned raised ↔
      Ends action state (fun result after => Ends (next result) after returned raised)
        raised := by
  simp only [Ends, EStateM.run, bind, EStateM.bind]
  cases action state <;> rfl

theorem ends_tryCatch {action : EStateM Error State α}
    {handler : Error → EStateM Error State α} :
    Ends (tryCatch action handler) state returned raised ↔
      Ends action state returned
        (fun error after => Ends (handler error) after returned raised) := by
  simp only [Ends, EStateM.run, tryCatch, tryCatchThe, MonadExceptOf.tryCatch]
  delta EStateM.tryCatch
  cases action state <;> rfl

theorem Ends.mono {action : EStateM Error State α} {returned' : α → State → Prop}
    {raised' : Error → State → Prop} (ends : Ends action state returned raised)
    (finished : ∀ result after, returned result after → returned' result after)
    (failed : ∀ error after, raised error after → raised' error after) :
    Ends action state returned' raised' := by
  unfold Ends at ends ⊢
  cases equal : action.run state with
  | ok result after =>
      rw [equal] at ends
      exact finished result after ends
  | error error after =>
      rw [equal] at ends
      exact failed error after ends

end Rules

end MeridianPostgreSQL
