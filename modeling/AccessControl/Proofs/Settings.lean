import AccessControl.Proofs.Attempt
import AccessControl.Settings

/-!
What settings that were read from variables are sure to be (`Sound`): each check that reading makes, said without the
reader.
-/

namespace AccessControl.Settings

variable {lookup : String → Option String}

theorem filled_eq_ok {name value : String} :
    filled lookup name = .ok value ↔ lookup name = some value ∧ blankText value = false := by
  have hfilter : (lookup name).filter (!blankText ·) = some value ↔
      lookup name = some value ∧ blankText value = false := by
    rw [Option.filter_eq_some_iff, Bool.not_eq_true']
  rw [filled, ← hfilter]
  cases (lookup name).filter (!blankText ·) with
  | some text => exact ⟨fun h => congrArg some (Except.ok.inj h), fun h => congrArg Except.ok (Option.some.inj h)⟩
  | none => exact ⟨nofun, nofun⟩

theorem readLifespan_pos {value : Option String} {seconds : Int64} (h : readLifespan value = .ok seconds) :
    0 < seconds := by
  cases value with
  | none =>
      cases h
      decide
  | some value =>
      rw [readLifespan] at h
      split at h
      · rename_i seconds' hfilter
        cases h
        exact of_decide_eq_true (Option.filter_eq_some_iff.1 hfilter).2
      · cases h

/-- What a service can rely on in its settings. -/
structure Sound (lookup : String → Option String) (s : Settings) : Prop where
  lifespan_pos : 0 < s.lifespan
  admin : ∀ {admin}, s.admin = some admin →
    lookup "ADMIN_USERNAME" = some admin.username ∧ blankText admin.username = false ∧
      lookup "ADMIN_PASSWORD" = some admin.password ∧ blankText admin.password = false

theorem readAdmin_eq_some {admin : AdminSettings} (h : readAdmin lookup = .ok (some admin)) :
    lookup "ADMIN_USERNAME" = some admin.username ∧ blankText admin.username = false ∧
      lookup "ADMIN_PASSWORD" = some admin.password ∧ blankText admin.password = false := by
  unfold readAdmin at h
  split at h
  · obtain ⟨username, husername, h⟩ := bind_eq_ok.1 h
    obtain ⟨password, hpassword, h⟩ := bind_eq_ok.1 h
    cases h
    exact ⟨(filled_eq_ok.1 husername).1, (filled_eq_ok.1 husername).2, filled_eq_ok.1 hpassword⟩
  · cases h

theorem sound_ofVariables {s : Settings} (h : ofVariables lookup = .ok s) : s.Sound lookup := by
  obtain ⟨store, -, h⟩ := bind_eq_ok.1 h
  obtain ⟨lifespan, hlifespan, h⟩ := bind_eq_ok.1 h
  obtain ⟨admin, hadmin, h⟩ := bind_eq_ok.1 h
  cases h
  refine ⟨readLifespan_pos hlifespan, fun hsome => ?_⟩
  obtain rfl : admin = _ := hsome
  exact readAdmin_eq_some hadmin

end AccessControl.Settings
