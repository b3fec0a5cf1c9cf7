import AccessControl.Proofs.Directory.Redaction
import AccessControl.Proofs.Repository.Operation

/-!
Repositories seen without password hashes, in the cache and in what is stored. Running a command that checks no
password commutes with redaction (`run_redacted`), whether its write is taken, read back, or neither.
-/

namespace AccessControl

/-! ### What is stored -/

namespace Document

def redacted (d : Document) : Document := { d with users := d.users.map Account.redacted }

/-- The document that the bytes hold, written anew without its hashes. What cannot be read holds nothing. -/
def redactedBytes (bytes : ByteArray) : ByteArray :=
  match ofBytes bytes with
  | .ok d => d.redacted.toBytes
  | .error _ => .empty

theorem ofBytes_empty : ofBytes .empty = .error .unreadableDocument := by rfl

theorem ofBytes_redactedBytes (bytes : ByteArray) : ofBytes (redactedBytes bytes) = redacted <$> ofBytes bytes := by
  unfold redactedBytes
  cases hread : ofBytes bytes with
  | ok d => exact ofBytes_toBytes d.redacted
  | error e =>
      unfold ofBytes at hread
      split at hread
      · cases hread
      · cases hread
        exact ofBytes_empty

theorem redactedBytes_toBytes (d : Document) : redactedBytes d.toBytes = d.redacted.toBytes := by
  rw [redactedBytes, ofBytes_toBytes]

end Document

namespace Store

def redacted (s : Store) : Store := { s with content := s.content.map Document.redactedBytes }

theorem redacted_took (s : Store) (d : Directory) : (s.took d).redacted = s.redacted.took d.redacted := by
  have hbytes := Document.redactedBytes_toBytes (.ofDirectory d)
  simp only [took, redacted, Option.map_some, hbytes]
  rfl

theorem redacted_load (s : Store) : s.redacted.load = Directory.redacted <$> s.load := by
  have hdirectory : directoryOf s.redacted.content = Directory.redacted <$> directoryOf s.content := by
    cases hcontent : s.content with
    | none => simp only [redacted, hcontent]; rfl
    | some bytes =>
        simp only [redacted, hcontent, Option.map_some, directoryOf, Document.ofBytes_redactedBytes]
        cases Document.ofBytes bytes with
        | ok d => rfl
        | error e => rfl
  unfold load get
  cases hfault : s.getFault with
  | some e => simp only [redacted, hfault]; rfl
  | none => simp only [redacted, hfault]; exact hdirectory

end Store

/-! ### Running a command -/

namespace Repository

def redacted (r : Repository) : Repository := ⟨r.store.redacted, r.cache.redacted⟩

theorem redacted_reloaded (s : Store) (next : Directory) :
    reloaded s.redacted next.redacted = (reloaded s next).redacted := by
  rw [reloaded, reloaded, Store.redacted_load]
  cases s.load with
  | ok d => rfl
  | error e => rfl

theorem commit_redacted {α : Type} (f : α → α) (r : Repository) (x : Except AccessError (α × Directory)) :
    r.redacted.commit (Prod.map f Directory.redacted <$> x) = Prod.map (f <$> ·) redacted (r.commit x) := by
  cases x with
  | error e => rfl
  | ok x =>
      obtain ⟨a, next⟩ := x
      rw [map_ok, Prod.map, commit, commit]
      cases hput : r.store.putFault with
      | none =>
          have hput' : r.redacted.store.putFault = none := hput
          rw [Store.put_of_accepting hput, Store.put_of_accepting hput']
          show (Except.ok (f a), Repository.mk (r.store.redacted.took next.redacted) next.redacted) =
            (Except.ok (f a), Repository.mk (r.store.took next).redacted next.redacted)
          rw [Store.redacted_took]
      | some e =>
          have hput' : r.redacted.store.putFault = some e := hput
          rw [Store.put_of_rejecting hput, Store.put_of_rejecting hput']
          show (Except.error e, Repository.mk r.store.tried.redacted (reloaded r.store.tried.redacted next.redacted)) =
            (Except.error e, Repository.mk r.store.tried.redacted (reloaded r.store.tried next).redacted)
          rw [redacted_reloaded]

/-- A command that checks no password runs on a redacted repository as on the repository itself, up to hashes. -/
theorem run_redacted (c : Circumstances) (r : Repository) {command : Command} (h : ¬ command.ChecksSecret) :
    r.redacted.run c.redacted command = Prod.map (Answer.redacted <$> ·) redacted (r.run c command) := by
  rw [run, run, ← commit_redacted, ← Command.attempt_redacted c r.cache h]
  rfl

end Repository

end AccessControl
