import AccessControl.Proofs.Gate.Admission
import AccessControl.Proofs.Repository.Runs
import AccessControl.Proofs.Site

/-!
Whom a token stands for. An account is looked up under a key and then goes by its own username; commands write
accounts under their usernames only, so the two differ at most where the document that was loaded has them differ.
-/

namespace AccessControl

namespace Directory

/-- A name by which the account under `key` may go, given that it was first found in `d`: the key itself, or the
username that `d` has under this key. -/
def Alias (d : Directory) (key name : String) : Prop :=
  name = key ∨ ∃ a, d.users.get? key = some a ∧ a.username = name

/-- The account under `key`, if there is one, goes by a name that `first` gives it. -/
def GoesBy (first : Directory) (key : String) (d : Directory) : Prop :=
  ∀ a, d.users.get? key = some a → first.Alias key a.username

theorem goesBy_self (d : Directory) (key : String) : GoesBy d key d := fun a hget => Or.inr ⟨a, hget, rfl⟩

theorem goesBy_kept (first : Directory) (key : String) : Kept (GoesBy first key) := by
  intro d next h hd a hget
  cases h with
  | account b named resolved =>
      rcases Table.get?_insert_eq_some.1 hget with ⟨hkey, rfl⟩ | ⟨-, hget⟩
      · exact Or.inl hkey.symm
      · exact hd a hget
  | secret k previous b held sameName sameRoles =>
      rcases Table.get?_insert_eq_some.1 hget with ⟨rfl, rfl⟩ | ⟨-, hget⟩
      · rw [sameName]
        exact hd previous held
      · exact hd a hget
  | accountGone k => exact hd a (Table.get?_erase_eq_some.1 hget).2
  | role r named free custom => exact hd a hget
  | roleGone name free => exact hd a hget

/-- Every account stands under its own username. -/
def Named (d : Directory) : Prop := ∀ key a, d.users.get? key = some a → a.username = key

theorem named_kept : Kept Named := by
  intro d next h hd key a hget
  rcases goesBy_kept d key h (d.goesBy_self key) a hget with hname | ⟨b, hheld, hname⟩
  · exact hname
  · rw [← hname]
    exact hd key b hheld

theorem named_empty : empty.Named := fun _ _ hget => by cases hget

theorem Named.putAccount {d : Directory} {key : String} {a : Account} (hd : d.Named) (hname : a.username = key) :
    (d.putAccount key a).Named := by
  intro key' b hget
  rcases Table.get?_insert_eq_some.1 hget with ⟨rfl, rfl⟩ | ⟨-, hheld⟩
  · exact hname
  · exact hd key' b hheld

end Directory

namespace Repository

theorem loaded_goesBy {store : Store} {r : Repository} (hload : Repository.load store = .ok r) (ops : List Operation)
    (key : String) : Directory.GoesBy r.cache key (r.after ops).cache :=
  (after_keeps (Directory.goesBy_kept r.cache key) (r.cache.goesBy_self key)
    ⟨r.cache, inStep_of_load hload, r.cache.goesBy_self key⟩ ops).1

end Repository

namespace Session

variable {σ : Type}

/-- What a login gives to the holder of an account. -/
def loginFor (d : Directory) (a : Account) (issued : IssuedToken) : Login :=
  { token := issued.token, expiresAt := issued.expiresAt, username := a.username,
    pwdUpdateRequired := a.pwdUpdateRequired, pwdExpirationDate := a.pwdExpirationDate,
    permissions := d.effectivePermissions a.username }

theorem login_eq_ok {service : TokenService σ} {h : Hasher} {d : Directory} {username password : String} {s : σ}
    {l : Login} :
    (login service h d username password s).1 = .ok l ↔
      ∃ a issued, d.verifyCredentials h username password = .ok a ∧
        (service.issue a.username s).1 = .ok issued ∧ loginFor d a issued = l := by
  unfold login
  cases hverified : d.verifyCredentials h username password with
  | error e =>
      constructor
      · intro hl
        cases hl
      · rintro ⟨a, issued, ha, -⟩
        cases ha
  | ok a =>
      dsimp only
      split
      · rename_i e s' hissue
        constructor
        · intro hl
          cases hl
        · rintro ⟨b, issued, hb, hissued, -⟩
          cases hb
          rw [hissue] at hissued
          cases hissued
      · rename_i issued s' hissue
        constructor
        · intro hl
          exact ⟨a, issued, rfl, by rw [hissue], Except.ok.inj hl⟩
        · rintro ⟨b, issued', hb, hissued, rfl⟩
          cases hb
          rw [hissue] at hissued
          cases hissued
          rfl

/-- A check does no more than look its token up. -/
theorem check_snd (service : TokenService σ) (d : Directory) (token : String) (s : σ) :
    (check service d token s).2 = (service.introspect token s).2 := by
  rw [← Gate.resolve_snd (d := d), check]
  split <;> rename_i h <;> rw [h]

end Session

namespace Repository

/-- Whatever was loaded and written since, a token that resolves stands for the subject that both services report
for it, and a login for the account that was asked for, but for the usernames that the loaded document has under
these keys: where it has another one, the holder goes by that. -/
theorem bearer_goes_by_subject {store : Store} {r : Repository} (hload : Repository.load store = .ok r)
    (ops : List Operation) {σ : Type} (service : TokenService σ) (s : σ) :
    (∀ token context, (Gate.resolve service (r.after ops).cache token s).1 = .ok context →
      ∃ subject claims name, (service.introspect token s).1 = .ok subject ∧ service.verify token = .ok claims ∧
        claims.subject = subject ∧ context.username = some name ∧ r.cache.Alias subject name) ∧
    ∀ h username password l, (Session.login service h (r.after ops).cache username password s).1 = .ok l →
      ∃ issued, (service.issue l.username s).1 = .ok issued ∧ l.token = issued.token ∧
        r.cache.Alias username l.username := by
  constructor
  · intro token context hresolve
    obtain ⟨subject, a, hbears, rfl⟩ := Gate.resolve_eq_ok.1 hresolve
    obtain ⟨claims, hverify, hsame⟩ := hbears.signed
    exact ⟨subject, claims, a.username, hbears.active, hverify, hsame, rfl,
      loaded_goesBy hload ops subject a hbears.held⟩
  · intro h username password l hlogin
    obtain ⟨a, issued, hverified, hissue, rfl⟩ := Session.login_eq_ok.1 hlogin
    obtain ⟨hget, -, -⟩ := Directory.verifyCredentials_eq_ok.1 hverified
    exact ⟨issued, hissue, rfl, loaded_goesBy hload ops username a hget⟩

/-- An account under a key that is not its username. -/
def masked : Directory := ⟨.ofList [("alice", ⟨"root", [], "hashed::pw", none, none, 0, true, none, false⟩)], .empty⟩

/-- A repository that was loaded from a document which holds `masked`. -/
def maskedRepository : Repository := ⟨Store.empty.took masked, masked⟩

theorem maskedRepository_loads : Repository.load (Store.empty.took masked) = .ok maskedRepository :=
  load_of_written (r := maskedRepository) (Document.written_toBytes _) rfl rfl

/-- Replaces the account under the key of `masked`, without a new password. -/
def unmask : Operation := .under .none (.updateAccount ⟨"alice", none, none, none, true, [], none, false⟩)

/-- Once it is replaced, the account goes by its key. -/
theorem bearer_goes_by_alice :
    Repository.load (Store.empty.took masked) = .ok maskedRepository ∧
      (∃ context name, (Gate.resolve Gate.onceOnly (maskedRepository.after [unmask]).cache "alice" (["alice"], fresh)).1 =
          .ok context ∧ context.username = some name ∧ name = "alice" ∧ masked.Alias "alice" name) ∧
      ∃ l, (Session.login Gate.onceOnly .marking (maskedRepository.after [unmask]).cache "alice" "pw" ([], fresh)).1 =
          .ok l ∧ l.username = "alice" ∧ masked.Alias "alice" l.username := by
  obtain ⟨hresolves, -⟩ :=
    bearer_goes_by_subject maskedRepository_loads [unmask] Gate.onceOnly (["alice"], fresh)
  obtain ⟨-, hlogs⟩ := bearer_goes_by_subject maskedRepository_loads [unmask] Gate.onceOnly ([], fresh)
  refine ⟨maskedRepository_loads, ?_, ?_⟩
  · obtain ⟨subject, claims, name, hactive, -, -, hname, halias⟩ := hresolves "alice" _ rfl
    cases hactive
    exact ⟨_, name, rfl, hname, (Option.some.inj hname).symm, halias⟩
  · obtain ⟨issued, -, -, halias⟩ := hlogs .marking "alice" "pw" _ rfl
    exact ⟨_, rfl, rfl, halias⟩

/-- As long as it is not, a token that both services report for alice resolves to another name, and alice's login
answers with it and issues a token for it. -/
theorem masked_bearer_goes_by_root :
    Repository.load (Store.empty.took masked) = .ok maskedRepository ∧
      (Gate.onceOnly.introspect "alice" (["alice"], fresh)).1 = .ok "alice" ∧
      Gate.onceOnly.verify "alice" = .ok ⟨"alice", 0⟩ ∧
      (∃ context, (Gate.resolve Gate.onceOnly maskedRepository.cache "alice" (["alice"], fresh)).1 = .ok context ∧
        context.username = some "root") ∧
      ∃ l, (Session.login Gate.onceOnly .marking maskedRepository.cache "alice" "pw" ([], fresh)).1 = .ok l ∧
        l.username = "root" ∧ (Gate.onceOnly.issue "root" ([], fresh)).1 = .ok ⟨l.token, l.expiresAt⟩ :=
  ⟨maskedRepository_loads, rfl, rfl, ⟨_, rfl, rfl⟩, _, rfl, rfl, rfl⟩

end Repository

end AccessControl
