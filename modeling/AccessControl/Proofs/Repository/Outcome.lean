import AccessControl.Proofs.Refusal
import AccessControl.Proofs.Repository.Operation

/-!
The exact outcome of a command on a repository whose store takes what is written. A command that is refused leaves the
repository as it was; of one that is not, it is said what it answers and what the store takes (`Answers`).
-/

namespace AccessControl

/-- No character but blanks. -/
def Blank (text : String) : Prop := ∀ ch ∈ text.toList, isBlank ch = true

theorem blank_iff {text : String} : Blank text ↔ (!blankText text) = false := by
  rw [Bool.not_eq_false', blankText, List.all_eq_true, Blank]

theorem not_blank_iff {text : String} : ¬ Blank text ↔ (!blankText text) = true := by
  rw [blank_iff, Bool.not_eq_false]

theorem FilledText.not_blank (name : FilledText) : ¬ Blank name.text := by
  rw [not_blank_iff, name.filled, Bool.not_false]

namespace Directory

/-- `next` is the directory with this role under the name, or without a role there, and has the same accounts. -/
def SetsRole (d : Directory) (name : String) (role : Option Role) (next : Directory) : Prop :=
  next.users = d.users ∧ d.roles.SetTo name role next.roles

/-- `next` is the directory with this account under the username, or without one there, and has the same roles. -/
def SetsAccount (d : Directory) (username : String) (a : Option Account) (next : Directory) : Prop :=
  next.roles = d.roles ∧ d.users.SetTo username a next.users

theorem setsRole_putRole (d : Directory) (role : Role) : d.SetsRole role.name (some role) (d.putRole role) :=
  ⟨rfl, Table.setTo_insert ..⟩

theorem setsAccount_putAccount (d : Directory) (key : String) (a : Account) :
    d.SetsAccount key (some a) (d.putAccount key a) := ⟨rfl, Table.setTo_insert ..⟩

end Directory

namespace Repository

/-- The command is refused with an error of the first cause that applies, and leaves the repository as it was. Where no
cause applies it is answered, the store takes a directory, and both are as described by the effect. -/
structure Answers (r : Repository) (c : Circumstances) (command : Command) (causes : List Cause)
    (effect : Answer → Directory → Prop) : Prop where
  settled : Settles causes (fun answer => ∃ next, (r.run c command).2 = r.took next ∧ effect answer next)
    (r.run c command).1
  kept : ∀ e, (r.run c command).1 = .error e → (r.run c command).2 = r

variable {r : Repository} {c : Circumstances} {command : Command} {causes : List Cause}
  {effect : Answer → Directory → Prop}

theorem run_of_refused {e : AccessError} (hattempt : (command.attempt c r.cache).outcome = .error e) :
    r.run c command = (.error e, r) := by
  rw [run, hattempt, commit]

/-- What an attempt settles, the repository answers. -/
theorem answers_of_settles (haccepting : r.store.putFault = none)
    (h : Settles causes (fun x => effect x.1 x.2) (command.attempt c r.cache).outcome) :
    r.Answers c command causes effect := by
  refine ⟨h.transfer (fun e hattempt => ?_) fun x hattempt heffect => ?_, fun e hrun => ?_⟩
  · rw [run_of_refused hattempt]
  · rw [run_of_accepting haccepting hattempt]
    exact ⟨x.1, rfl, x.2, rfl, heffect⟩
  · cases hattempt : (command.attempt c r.cache).outcome with
    | error e' => rw [run_of_refused hattempt]
    | ok x =>
        rw [run_of_accepting haccepting hattempt] at hrun
        cases hrun

/-- A command that passes on what a change of the directory gives, is answered with what the change gives. -/
theorem answers_of_map {α : Type} {g : α → Answer} {P : α → Directory → Prop} {x : Except AccessError (α × Directory)}
    (haccepting : r.store.putFault = none) (hattempt : (command.attempt c r.cache).outcome = Prod.map g id <$> x)
    (h : Settles causes (fun y => P y.1 y.2) x) :
    r.Answers c command causes fun answer next => ∃ a, answer = g a ∧ P a next := by
  refine answers_of_settles haccepting ?_
  rw [hattempt]
  exact h.map fun y hy => ⟨y.1, rfl, hy⟩

/-- A command that only changes the directory is answered with its being done. -/
theorem answers_of_done {P : Directory → Prop} {x : Except AccessError Directory}
    (haccepting : r.store.putFault = none) (hattempt : (command.attempt c r.cache).outcome = (.done, ·) <$> x)
    (h : Settles causes P x) : r.Answers c command causes fun answer next => answer = .done ∧ P next := by
  refine answers_of_settles haccepting ?_
  rw [hattempt]
  exact h.map fun next hnext => ⟨rfl, hnext⟩

end Repository

end AccessControl
