import AccessControl.Attempt

/-!
What an attempt comes to, part by part. A success of a sequence of steps is a success of each of them
(`bind_eq_ok`), so it can be taken apart without opening the sequence. What is hashed on the way is said with the
condition under which it is (`HashesWhen`).
-/

namespace AccessControl

theorem ok_bind {ε α β : Type} (a : α) (f : α → Except ε β) : (Except.ok a >>= f) = f a := rfl

theorem map_ok {ε α β : Type} (f : α → β) (a : α) : f <$> (Except.ok a : Except ε α) = .ok (f a) := rfl

@[simp] theorem bind_eq_ok {ε α β : Type} {x : Except ε α} {f : α → Except ε β} {b : β} :
    (x >>= f) = .ok b ↔ ∃ a, x = .ok a ∧ f a = .ok b := by
  cases x with
  | ok a => exact ⟨fun h => ⟨a, rfl, h⟩, fun ⟨_, h, hf⟩ => Except.ok.inj h ▸ hf⟩
  | error e => exact ⟨(nomatch ·), fun ⟨_, h, _⟩ => nomatch h⟩

@[simp] theorem map_eq_ok {ε α β : Type} {x : Except ε α} {f : α → β} {b : β} :
    f <$> x = .ok b ↔ ∃ a, x = .ok a ∧ f a = b := by
  cases x with
  | ok a => exact ⟨fun h => ⟨a, rfl, Except.ok.inj h⟩, fun ⟨_, h, hf⟩ => Except.ok.inj h ▸ congrArg _ hf⟩
  | error e => exact ⟨(nomatch ·), fun ⟨_, h, _⟩ => nomatch h⟩

@[simp] theorem pure_eq_ok {ε α : Type} {a b : α} : (pure a : Except ε α) = .ok b ↔ a = b :=
  ⟨Except.ok.inj, fun h => h ▸ rfl⟩

@[simp] theorem demand_eq_ok {condition : Bool} {e : AccessError} {u : Unit} :
    demand condition e = .ok u ↔ condition = true := by
  cases condition with
  | true => exact ⟨fun _ => rfl, fun _ => rfl⟩
  | false => exact ⟨(nomatch ·), (nomatch ·)⟩

@[simp] theorem present_eq_ok {α : Type} {o : Option α} {e : AccessError} {a : α} :
    present o e = .ok a ↔ o = some a := by
  cases o with
  | some b => exact ⟨fun h => congrArg some (Except.ok.inj h), fun h => congrArg Except.ok (Option.some.inj h)⟩
  | none => exact ⟨(nomatch ·), (nomatch ·)⟩

namespace Attempt

variable {α β : Type}

@[simp] theorem outcome_pure (a : α) : (pure a : Attempt α).outcome = .ok a := rfl

@[simp] theorem outcome_lift (r : Except AccessError α) : (liftM r : Attempt α).outcome = r := rfl

@[simp] theorem outcome_hashing (h : Hasher) (secret : String) : (h.hashing secret).outcome = h.hash secret := rfl

@[simp] theorem outcome_bind (x : Attempt α) (f : α → Attempt β) :
    (x >>= f).outcome = x.outcome >>= fun a => (f a).outcome := by
  show (andThen x f).outcome = _
  unfold andThen
  cases h : x.outcome with
  | ok a => rfl
  | error e => rfl

/-- The attempt hashes nothing but the secret for which hashing is reached, and this one once. -/
structure HashesWhen (x : Attempt α) (reached : String → Prop) : Prop where
  once : ∀ secret, reached secret → x.hashed = [secret]
  never : (∀ secret, ¬ reached secret) → x.hashed = []

namespace HashesWhen

variable {reached : String → Prop} {f : α → Attempt β}

theorem pure (h : ∀ secret, ¬ reached secret) (a : α) : HashesWhen (Pure.pure a : Attempt α) reached :=
  ⟨fun secret hsecret => absurd hsecret (h secret), fun _ => rfl⟩

theorem hashing (h : Hasher) {secret : String} (hreached : ∀ s, reached s ↔ s = secret) :
    (h.hashing secret).HashesWhen reached :=
  ⟨fun s hs => by rw [(hreached s).1 hs]; rfl, fun hnone => absurd ((hreached secret).2 rfl) (hnone secret)⟩

/-- A step that hashes nothing passes wherever hashing is reached afterwards. -/
theorem lift_bind {r : Except AccessError α} (hpassed : ∀ secret, reached secret → ∃ a, r = .ok a)
    (h : ∀ a, r = .ok a → (f a).HashesWhen reached) : HashesWhen (liftM r >>= f) reached := by
  cases r with
  | ok a => exact ⟨(h a rfl).once, (h a rfl).never⟩
  | error e =>
      refine ⟨fun secret hsecret => ?_, fun _ => rfl⟩
      obtain ⟨a, ha⟩ := hpassed secret hsecret
      cases ha

/-- Nothing more is hashed by what hashes nothing. -/
theorem bind {x : Attempt α} (hx : x.HashesWhen reached) (hf : ∀ a, (f a).HashesWhen fun _ => False) :
    HashesWhen (x >>= f) reached := by
  have hsame : (x >>= f).hashed = x.hashed := by
    show (andThen x f).hashed = _
    unfold andThen
    cases x.outcome with
    | ok a =>
        show x.hashed ++ (f a).hashed = x.hashed
        rw [(hf a).never fun _ => id, List.append_nil]
    | error e => rfl
  exact ⟨fun secret hsecret => hsame.trans (hx.once secret hsecret), fun hnone => hsame.trans (hx.never hnone)⟩

end HashesWhen

end Attempt

end AccessControl
