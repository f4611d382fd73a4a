import MeridianPostgreSQL.Foundation.RecursiveQueries
import Mathlib.Data.Finset.Filter

/-! # Simple paths

Sequences of steps between the nodes of any graph, with any number of steps
between two nodes, that visit no node twice. A recursive query that appends a
step to a path whenever it leads to a new node finds every simple path of
bounded length once. -/

namespace MeridianPostgreSQL.SimplePaths

open RecursiveQueries

universe u v

variable {Node : Type u} {Step : Type v} (source target : Step → Node)

/-! ## Paths -/

/-- Each step begins where the one before it ends, and the first at the start. -/
def Leads : Node → List Step → Prop
  | _, [] => True
  | start, step :: rest => source step = start ∧ Leads (target step) rest

def finish : Node → List Step → Node
  | start, [] => start
  | _, step :: rest => finish (target step) rest

def visited (start : Node) (path : List Step) : List Node := start :: path.map target

structure SimplePath (allowed : Step → Prop) (start : Node) (path : List Step) : Prop where
  allowed : ∀ step ∈ path, allowed step
  leads : Leads source target start path
  once : (visited target start path).Nodup

variable {source target}

theorem leads_concat {start : Node} {path : List Step} {step : Step} :
    Leads source target start (path ++ [step]) ↔
      Leads source target start path ∧ source step = finish target start path := by
  induction path generalizing start with
  | nil => simp [Leads, finish]
  | cons first path induction => simp only [List.cons_append, Leads, finish, induction, and_assoc]

@[simp] theorem finish_concat {start : Node} {path : List Step} {step : Step} :
    finish target start (path ++ [step]) = target step := by
  induction path generalizing start with
  | nil => rfl
  | cons first path induction => exact induction

@[simp] theorem visited_concat {start : Node} {path : List Step} {step : Step} :
    visited target start (path ++ [step]) = visited target start path ++ [target step] := by
  simp [visited]

variable {allowed : Step → Prop}

theorem simplePath_nil (start : Node) : SimplePath source target allowed start [] where
  allowed := nofun
  leads := trivial
  once := List.nodup_singleton start

theorem simplePath_concat {start : Node} {path : List Step} {step : Step} :
    SimplePath source target allowed start (path ++ [step]) ↔
      SimplePath source target allowed start path ∧ allowed step ∧
        source step = finish target start path ∧ target step ∉ visited target start path := by
  have nodup : (visited target start (path ++ [step])).Nodup ↔
      (visited target start path).Nodup ∧ target step ∉ visited target start path := by
    rw [visited_concat, ← List.concat_eq_append, List.nodup_concat, and_comm]
  constructor
  · rintro ⟨listed, leads, once⟩
    obtain ⟨before, follows⟩ := leads_concat.mp leads
    obtain ⟨beforeOnce, new⟩ := nodup.mp once
    obtain ⟨others, last⟩ := List.forall_mem_append.mp listed
    exact ⟨⟨others, before, beforeOnce⟩, last step List.mem_cons_self, follows, new⟩
  · rintro ⟨⟨listed, leads, once⟩, last, follows, new⟩
    exact ⟨List.forall_mem_append.mpr ⟨listed, List.forall_mem_singleton.mpr last⟩,
      leads_concat.mpr ⟨leads, follows⟩, nodup.mpr ⟨once, new⟩⟩

/-! ## Enumeration -/

section Enumeration

variable [DecidableEq Node]

variable (source target) in
/-- The step leads from the end of a path below the limit to a new node. -/
def admissible (start : Node) (limit : Nat) (path : List Step) (step : Step) : Bool :=
  decide (path.length < limit) && decide (source step = finish target start path) &&
    decide (target step ∉ visited target start path)

theorem admissible_iff {start : Node} {limit : Nat} {path : List Step} {step : Step} :
    admissible source target start limit path step = true ↔ path.length < limit ∧
      source step = finish target start path ∧ target step ∉ visited target start path := by
  simp only [admissible, Bool.and_eq_true, decide_eq_true_eq, and_assoc]

variable {steps : List Step} {start : Node} {limit : Nat}

theorem grown_iff (listed : ∀ step, step ∈ steps ↔ allowed step) (path : List Step) :
    Grown steps (admissible source target start limit) path ↔
      SimplePath source target allowed start path ∧ path.length ≤ limit := by
  induction path using List.reverseRecOn with
  | nil => exact iff_of_true .nil ⟨simplePath_nil start, Nat.zero_le _⟩
  | append_singleton path step induction =>
      rw [grown_concat, induction, admissible_iff, simplePath_concat, listed, List.length_append,
        List.length_singleton, Nat.succ_le_iff]
      constructor
      · rintro ⟨⟨simple, _⟩, last, shorter, follows, new⟩
        exact ⟨⟨simple, last, follows, new⟩, shorter⟩
      · rintro ⟨⟨simple, last, follows, new⟩, shorter⟩
        exact ⟨⟨simple, shorter.le⟩, last, shorter, follows, new⟩

/-- The query ends, whatever the cycles of the graph. -/
theorem exists_paths (steps : List Step) (start : Node) (limit : Nat) :
    ∃ all, Evaluates (extensions steps (admissible source target start limit)) {[]} all := by
  refine exists_evaluates (fun path => limit - path.length) ?_ {[]}
  intro path following extended
  obtain ⟨step, _, admitted, rfl⟩ := mem_extensions.mp extended
  have shorter := (admissible_iff.mp admitted).1
  rw [List.length_append, List.length_singleton]
  omega

theorem evaluates_simplePaths (nodup : steps.Nodup) (listed : ∀ step, step ∈ steps ↔ allowed step)
    (start : Node) (limit : Nat) :
    ∃ paths : Finset (List Step),
      Evaluates (extensions steps (admissible source target start limit)) {[]} paths.val ∧
        ∀ path, path ∈ paths ↔
          SimplePath source target allowed start path ∧ path.length ≤ limit := by
  obtain ⟨all, evaluates⟩ := @exists_paths _ _ source target _ steps start limit
  obtain ⟨once, grown⟩ := evaluates_grown nodup evaluates
  exact ⟨⟨all, once⟩, evaluates, fun path => (grown path).trans (grown_iff listed path)⟩

end Enumeration

end MeridianPostgreSQL.SimplePaths
