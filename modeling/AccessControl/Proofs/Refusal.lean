import AccessControl.Proofs.Attempt

/-!
For what, and in which order, something is refused. What may be refused is specified by a list of causes: the first
cause that applies is the one that is reported, and only where none applies the thing is done (`Settles`). There is one
rule for each kind of step, so that a computation is followed from its first demand to its last.
-/

namespace AccessControl

/-! ### First members -/

/-- `a` is the first member of the list that has the property. -/
def IsFirst {α : Type} (P : α → Prop) (l : List α) (a : α) : Prop :=
  ∃ before after, l = before ++ a :: after ∧ P a ∧ ∀ b ∈ before, ¬ P b

section

variable {α : Type} {P : α → Prop} {l m : List α} {a : α}

theorem IsFirst.mem (h : IsFirst P l a) : a ∈ l := by
  obtain ⟨before, after, rfl, -, -⟩ := h
  exact List.mem_append_right _ List.mem_cons_self

theorem IsFirst.holds (h : IsFirst P l a) : P a := by
  obtain ⟨before, after, -, ha, -⟩ := h
  exact ha

theorem IsFirst.unique {b : α} (h : IsFirst P l a) (h' : IsFirst P l b) : a = b := by
  obtain ⟨before, after, rfl, ha, hbefore⟩ := h
  obtain ⟨before', after', heq, hb, hbefore'⟩ := h'
  rcases List.append_eq_append_iff.1 heq with ⟨between, rfl, hrest⟩ | ⟨between, rfl, hrest⟩
  · cases between with
    | nil => exact (List.cons.inj hrest).1
    | cons c between =>
        cases hrest
        exact absurd ha (hbefore' a (List.mem_append_right _ List.mem_cons_self))
  · cases between with
    | nil => exact (List.cons.inj hrest).1.symm
    | cons c between =>
        cases hrest
        exact absurd hb (hbefore b (List.mem_append_right _ List.mem_cons_self))

theorem IsFirst.append_right (h : IsFirst P l a) (m : List α) : IsFirst P (l ++ m) a := by
  obtain ⟨before, after, rfl, ha, hbefore⟩ := h
  exact ⟨before, after ++ m, by rw [List.append_assoc, List.cons_append], ha, hbefore⟩

theorem IsFirst.append_left (hl : ∀ b ∈ l, ¬ P b) (h : IsFirst P m a) : IsFirst P (l ++ m) a := by
  obtain ⟨before, after, rfl, ha, hbefore⟩ := h
  refine ⟨l ++ before, after, (List.append_assoc ..).symm, ha, fun b hb => ?_⟩
  rcases List.mem_append.1 hb with hmem | hmem
  · exact hl b hmem
  · exact hbefore b hmem

end

/-- The outcome is an error about the first member of the list that has the property; if none has it, it is a result. -/
def FailsAtFirst {α β : Type} (P : α → Prop) (error : α → AccessError) (l : List α) (x : Except AccessError β) : Prop :=
  (∃ b, x = .ok b ∧ ∀ a ∈ l, ¬ P a) ∨ ∃ a, IsFirst P l a ∧ x = .error (error a)

namespace FailsAtFirst

variable {α β γ : Type} {P : α → Prop} {error : α → AccessError} {l m : List α} {x : Except AccessError β}

theorem eq_ok_iff (h : FailsAtFirst P error l x) : (∃ b, x = .ok b) ↔ ∀ a ∈ l, ¬ P a := by
  rcases h with ⟨b, rfl, hnone⟩ | ⟨a, hfirst, rfl⟩
  · exact ⟨fun _ => hnone, fun _ => ⟨b, rfl⟩⟩
  · exact ⟨fun ⟨b, hb⟩ => (nomatch hb), fun hnone => absurd hfirst.holds (hnone a hfirst.mem)⟩

theorem eq_error_iff (h : FailsAtFirst P error l x) {e : AccessError} :
    x = .error e ↔ ∃ a, IsFirst P l a ∧ e = error a := by
  rcases h with ⟨b, rfl, hnone⟩ | ⟨a, hfirst, rfl⟩
  · constructor
    · exact (nomatch ·)
    · rintro ⟨a, hfirst, -⟩
      exact absurd hfirst.holds (hnone a hfirst.mem)
  · constructor
    · intro heq
      exact ⟨a, hfirst, (Except.error.inj heq).symm⟩
    · rintro ⟨a', hfirst', rfl⟩
      rw [hfirst.unique hfirst']

theorem ok (b : β) : FailsAtFirst P error [] (.ok b) := Or.inl ⟨b, rfl, fun _ ha => absurd ha List.not_mem_nil⟩

theorem of_present {a : α} {o : Option β} (happlies : P a ↔ o = none) :
    FailsAtFirst P error [a] (present o (error a)) := by
  cases o with
  | none => exact Or.inr ⟨a, ⟨[], [], rfl, happlies.2 rfl, fun _ hb => absurd hb List.not_mem_nil⟩, rfl⟩
  | some b =>
      refine Or.inl ⟨b, rfl, fun c hc hP => ?_⟩
      rw [List.mem_singleton.1 hc] at hP
      exact nomatch happlies.1 hP

theorem bind {f : β → Except AccessError γ} (hx : FailsAtFirst P error l x)
    (hf : ∀ b, x = .ok b → FailsAtFirst P error m (f b)) : FailsAtFirst P error (l ++ m) (x >>= f) := by
  rcases hx with ⟨b, rfl, hl⟩ | ⟨a, hfirst, rfl⟩
  · rcases hf b rfl with ⟨c, hc, hm⟩ | ⟨a, hfirst, ha⟩
    · exact Or.inl ⟨c, hc, fun a ha => (List.mem_append.1 ha).elim (hl a) (hm a)⟩
    · exact Or.inr ⟨a, hfirst.append_left hl, ha⟩
  · exact Or.inr ⟨a, hfirst.append_right m, rfl⟩

theorem mapM {parts : γ → List α} {f : γ → Except AccessError β} (hf : ∀ c, FailsAtFirst P error (parts c) (f c))
    (cs : List γ) : FailsAtFirst P error (cs.flatMap parts) (cs.mapM f) := by
  induction cs with
  | nil => exact ok []
  | cons c cs ih =>
      rw [List.mapM_cons, List.flatMap_cons]
      refine (hf c).bind fun b _ => ?_
      rw [← List.append_nil (cs.flatMap parts)]
      exact ih.bind fun bs _ => ok (b :: bs)

end FailsAtFirst

/-! ### Causes -/

/-- A cause of refusal: when it applies, and with which errors it refuses then. -/
structure Cause where
  applies : Prop
  errors : AccessError → Prop

namespace Cause

/-- One error of the given kind, under a condition. -/
def when (condition : Prop) (kind : ErrorKind) (e : AccessError) : Cause :=
  ⟨condition, fun e' => e' = e ∧ e.kind = kind⟩

/-- The errors that something else reports, passed on as they are. -/
def passedOn (reported : AccessError → Prop) : Cause := ⟨∃ e, reported e, reported⟩

/-- An error of the given kind about the first member of a list that has a property, if one has it. -/
def atFirst {α : Type} (P : α → Prop) (l : List α) (kind : ErrorKind) (error : α → AccessError) : Cause :=
  ⟨∃ a ∈ l, P a, fun e => ∃ a, IsFirst P l a ∧ e = error a ∧ e.kind = kind⟩

end Cause

/-- The outcome is an error of the first cause of the list that applies; where none applies, it is a result as described
by `done`. -/
def Settles {α : Type} : List Cause → (α → Prop) → Except AccessError α → Prop
  | [], done, x => ∃ a, x = .ok a ∧ done a
  | cause :: rest, done, x =>
    (cause.applies → ∃ e, cause.errors e ∧ x = .error e) ∧ (¬ cause.applies → Settles rest done x)

namespace Settles

variable {α β : Type} {cause : Cause} {rest causes : List Cause} {done : β → Prop} {x : Except AccessError α}
  {f : α → Except AccessError β} {P : Prop} {kind : ErrorKind} {e : AccessError}

/-- What is refused, and what is done, may be seen elsewhere. -/
theorem transfer {done : α → Prop} {done' : β → Prop} {y : Except AccessError β}
    (herror : ∀ e, x = .error e → y = .error e) (hok : ∀ a, x = .ok a → done a → ∃ b, y = .ok b ∧ done' b)
    (h : Settles causes done x) : Settles causes done' y := by
  induction causes with
  | nil =>
      obtain ⟨a, hx, hdone⟩ := h
      exact hok a hx hdone
  | cons cause rest ih =>
      refine ⟨fun happlies => ?_, fun hnot => ih (h.2 hnot)⟩
      obtain ⟨e, he, hx⟩ := h.1 happlies
      exact ⟨e, he, herror e hx⟩

theorem map {done : α → Prop} {done' : β → Prop} {g : α → β} (h : Settles causes done x)
    (hdone : ∀ a, done a → done' (g a)) : Settles causes done' (g <$> x) := by
  refine h.transfer (fun e hx => ?_) fun a hx ha => ⟨g a, ?_, hdone a ha⟩
  · rw [hx]
    rfl
  · rw [hx]
    rfl

theorem finish {b : β} (h : done b) : Settles [] done (.ok b) := ⟨b, rfl, h⟩

/-- A step fails exactly if the first cause applies, and goes on with the other causes. -/
theorem step (hrefused : cause.applies → ∃ e, cause.errors e ∧ x = .error e)
    (hpassed : ¬ cause.applies → ∃ a, x = .ok a) (h : ∀ a, x = .ok a → Settles rest done (f a)) :
    Settles (cause :: rest) done (x >>= f) := by
  refine ⟨fun happlies => ?_, fun hnot => ?_⟩
  · obtain ⟨e, he, rfl⟩ := hrefused happlies
    exact ⟨e, he, rfl⟩
  · obtain ⟨a, rfl⟩ := hpassed hnot
    exact h a rfl

theorem of_demand {condition : Bool} {f : Unit → Except AccessError β} (happlies : P ↔ condition = false)
    (hkind : e.kind = kind) (h : condition = true → Settles rest done (f ())) :
    Settles (.when P kind e :: rest) done (demand condition e >>= f) := by
  cases condition with
  | false => exact step (fun _ => ⟨e, ⟨rfl, hkind⟩, rfl⟩) (fun hnot => absurd (happlies.2 rfl) hnot) nofun
  | true => exact step (fun hP => nomatch happlies.1 hP) (fun _ => ⟨(), rfl⟩) fun _ _ => h rfl

theorem of_present {o : Option α} (happlies : P ↔ o = none) (hkind : e.kind = kind)
    (h : ∀ a, o = some a → Settles rest done (f a)) : Settles (.when P kind e :: rest) done (present o e >>= f) := by
  cases o with
  | none => exact step (fun _ => ⟨e, ⟨rfl, hkind⟩, rfl⟩) (fun hnot => absurd (happlies.2 rfl) hnot) nofun
  | some a =>
      refine step (fun hP => nomatch happlies.1 hP) (fun _ => ⟨a, rfl⟩) fun b hb => ?_
      cases hb
      exact h a rfl

theorem of_report {reported : AccessError → Prop} (hreported : ∀ e, reported e ↔ x = .error e)
    (h : ∀ a, x = .ok a → Settles rest done (f a)) : Settles (.passedOn reported :: rest) done (x >>= f) := by
  refine step (fun happlies => ?_) (fun hnot => ?_) h
  · obtain ⟨e, he⟩ := happlies
    exact ⟨e, he, (hreported e).1 he⟩
  · cases hx : x with
    | ok a => exact ⟨a, rfl⟩
    | error e => exact absurd ⟨e, (hreported e).2 hx⟩ hnot

theorem of_first {γ : Type} {P : γ → Prop} {l : List γ} {error : γ → AccessError} (hx : FailsAtFirst P error l x)
    (hkind : ∀ c, (error c).kind = kind) (h : ∀ a, x = .ok a → Settles rest done (f a)) :
    Settles (.atFirst P l kind error :: rest) done (x >>= f) := by
  rcases hx with ⟨a, hx, hnone⟩ | ⟨c, hfirst, hx⟩
  · refine step (fun happlies => ?_) (fun _ => ⟨a, hx⟩) h
    obtain ⟨c, hmem, hc⟩ := happlies
    exact absurd hc (hnone c hmem)
  · refine step (fun _ => ?_) (fun hnot => absurd ⟨c, hfirst.mem, hfirst.holds⟩ hnot) h
    exact ⟨error c, ⟨c, hfirst, rfl, hkind c⟩, hx⟩

end Settles

end AccessControl
