import AccessControl.Proofs.Token.Authority
import Mathlib.Data.List.Induction

/-!
The registry of an authority against its history. After any run of issuing, introspecting and revoking, the entries
that have not expired are those of the tokens that were issued and not revoked since (`shows_after`), whatever was
dropped on the way; so a token is active exactly if the history says so (`registry_follows_history`).
-/

namespace AccessControl

/-- Where a run can be split: at its last event or before. -/
theorem exists_split_snoc {α : Type} {p : List α → α → List α → Prop} {l : List α} {x : α} :
    (∃ before y later, l ++ [x] = before ++ y :: later ∧ p before y later) ↔
      p l x [] ∨ ∃ before y later, l = before ++ y :: later ∧ p before y (later ++ [x]) := by
  constructor
  · rintro ⟨before, y, later, hsplit, hp⟩
    rcases List.eq_nil_or_concat' later with rfl | ⟨later, x', rfl⟩
    · obtain ⟨rfl, hlast⟩ := List.append_inj' hsplit rfl
      cases hlast
      exact Or.inl hp
    · rw [← List.cons_append, ← List.append_assoc] at hsplit
      obtain ⟨hl, hlast⟩ := List.append_inj' hsplit rfl
      cases hlast
      exact Or.inr ⟨before, y, later, hl, hp⟩
  · rintro (hp | ⟨before, y, later, rfl, hp⟩)
    · exact ⟨l, x, [], rfl, hp⟩
    · exact ⟨before, y, later ++ [x], by rw [List.append_assoc, List.cons_append], hp⟩

namespace TokenAuthority

/-! ### Runs -/

/-- What is asked of the registry, with what the clock shows whenever it is read. `id` becomes the id of the token. -/
inductive Event
  | issue (signedAt enteredAt : Int64) (id subject : String)
  | introspect (now : Int64) (token : String)
  | revoke (token : String)

def Event.readings : Event → List Int64
  | .issue signedAt enteredAt _ _ => [signedAt, enteredAt]
  | .introspect now _ => [now]
  | .revoke _ => []

def step (a : TokenAuthority) (r : Registry) : Event → Registry
  | .issue signedAt enteredAt id subject => (a.issueAt signedAt enteredAt id subject r).2
  | .introspect now token => (a.introspect now token r).2
  | .revoke token => (a.revoke token r).2

def after (a : TokenAuthority) (events : List Event) : Registry := events.foldl a.step .empty

/-! ### The history of a token -/

/-- The token that an event issues, with its subject and its expiry. -/
def entered? (a : TokenAuthority) : Event → Option (String × ActiveToken)
  | .issue signedAt _ id subject =>
    some ((a.issued signedAt id subject).token, ⟨subject, (a.issued signedAt id subject).expiresAt⟩)
  | _ => none

/-- The token that an event issues or revokes. -/
def changed? (a : TokenAuthority) : Event → Option String
  | .issue signedAt _ id subject => some (a.issued signedAt id subject).token
  | .introspect _ _ => none
  | .revoke token => some token

/-- The token was issued, for the subject and until the time that are given, and has not been revoked since. -/
def InForce (a : TokenAuthority) (events : List Event) (token : String) (t : ActiveToken) : Prop :=
  ∃ before e later, events = before ++ e :: later ∧ a.entered? e = some (token, t) ∧ .revoke token ∉ later

/-- What a run is taken to be like, seen from a moment: the clock has shown nothing later, as it has not if it never
goes back; and the digest tells the tokens of the run, and the one that is asked for, apart. -/
structure Regular (a : TokenAuthority) (events : List Event) (now : Int64) (token : String) : Prop where
  past : ∀ e ∈ events, ∀ reading ∈ e.readings, reading ≤ now
  distinguished : ∀ s t, (s = token ∨ ∃ e ∈ events, a.changed? e = some s) →
    (t = token ∨ ∃ e ∈ events, a.changed? e = some t) → a.digest s = a.digest t → s = t

section

variable {a : TokenAuthority} {events : List Event} {e : Event} {token : String} {t : ActiveToken} {now : Int64}

theorem after_snoc (a : TokenAuthority) (events : List Event) (e : Event) :
    a.after (events ++ [e]) = a.step (a.after events) e := by
  rw [after, List.foldl_append]
  rfl

theorem not_inForce_nil : ¬ a.InForce [] token t := by
  rintro ⟨before, e, later, hevents, -⟩
  exact List.append_ne_nil_of_right_ne_nil _ (List.cons_ne_nil _ _) hevents.symm

theorem inForce_snoc :
    a.InForce (events ++ [e]) token t ↔
      a.entered? e = some (token, t) ∨ (a.InForce events token t ∧ e ≠ .revoke token) := by
  refine exists_split_snoc.trans (or_congr (and_iff_left List.not_mem_nil) ?_)
  simp only [InForce, List.mem_append, List.mem_singleton, not_or, ← and_assoc, exists_and_right, ne_eq, eq_comm]

theorem entered?_eq_some (h : a.entered? e = some (token, t)) :
    ∃ signedAt enteredAt id subject, e = .issue signedAt enteredAt id subject ∧
      (a.issued signedAt id subject).token = token ∧ t = ⟨subject, (a.issued signedAt id subject).expiresAt⟩ := by
  cases e with
  | issue signedAt enteredAt id subject =>
      obtain ⟨htoken, ht⟩ := Prod.mk.inj (Option.some.inj h)
      exact ⟨signedAt, enteredAt, id, subject, rfl, htoken, ht.symm⟩
  | introspect now token => cases h
  | revoke token => cases h

theorem InForce.changed (h : a.InForce events token t) : ∃ e ∈ events, a.changed? e = some token := by
  obtain ⟨before, e, later, rfl, hentered, -⟩ := h
  obtain ⟨signedAt, enteredAt, id, subject, rfl, rfl, -⟩ := entered?_eq_some hentered
  exact ⟨_, List.mem_append_right _ List.mem_cons_self, rfl⟩

/-- A token has one subject and one expiry, however often it is issued. -/
theorem InForce.eq_issued {issuedAt : Int64} {id subject : String} (h : a.InForce events token t)
    (htoken : token = (a.issued issuedAt id subject).token) :
    t = ⟨subject, (a.issued issuedAt id subject).expiresAt⟩ := by
  obtain ⟨before, e, later, -, hentered, -⟩ := h
  obtain ⟨signedAt, enteredAt, id', subject', -, rfl, rfl⟩ := entered?_eq_some hentered
  obtain ⟨hsubject, hexpires⟩ := issued_eq_of_token htoken
  rw [hexpires, hsubject]

theorem Regular.init (h : a.Regular (events ++ [e]) now token) : a.Regular events now token where
  past e' he' := h.past e' (List.mem_append_left _ he')
  distinguished s t hs ht := by
    have hmem : ∀ u, (∃ e' ∈ events, a.changed? e' = some u) → ∃ e' ∈ events ++ [e], a.changed? e' = some u := by
      rintro u ⟨e', he', hchanged⟩
      exact ⟨e', List.mem_append_left _ he', hchanged⟩
    exact h.distinguished s t (hs.imp_right (hmem s)) (ht.imp_right (hmem t))

/-- The digest tells a token that is in force from one that the last event changed. -/
theorem Regular.eq_of_digest {s : String} (h : a.Regular (events ++ [e]) now token) (ht : a.InForce events s t)
    {changed : String} (hchanged : a.changed? e = some changed) (hdigest : a.digest s = a.digest changed) :
    s = changed := by
  obtain ⟨e', he', hs⟩ := ht.changed
  exact h.distinguished _ _ (Or.inr ⟨e', List.mem_append_left _ he', hs⟩)
    (Or.inr ⟨e, List.mem_concat_self, hchanged⟩) hdigest

/-! ### What the registry shows -/

theorem shows_step {r : Registry} (h : r.Shows a.digest now (a.InForce events))
    (hregular : a.Regular (events ++ [e]) now token) :
    (a.step r e).Shows a.digest now (a.InForce (events ++ [e])) := by
  have hpast := hregular.past e List.mem_concat_self
  cases e with
  | issue signedAt enteredAt id subject =>
      have hentered : enteredAt ≤ now := hpast enteredAt (List.mem_cons_of_mem _ List.mem_cons_self)
      rw [step, issueAt_eq]
      refine h.add hentered (fun s u => ?_) fun s u hs hdigest => ?_
      · simp only [inForce_snoc, entered?, Option.some.injEq, Prod.mk.injEq, ne_eq, reduceCtorEq, not_false_eq_true,
          and_true, eq_comm]
      · have htoken := hregular.eq_of_digest hs rfl hdigest
        exact ⟨htoken, hs.eq_issued htoken⟩
  | introspect earlier looked =>
      refine h.of_pruned (Registry.pruned_introspect (hpast earlier List.mem_cons_self) _) fun s u => ?_
      simp only [inForce_snoc, entered?, ne_eq, reduceCtorEq, not_false_eq_true, and_true, false_or]
  | revoke revoked =>
      refine h.remove (fun s u => ?_) fun s u hs hdigest => hregular.eq_of_digest hs rfl hdigest
      simp only [inForce_snoc, entered?, ne_eq, reduceCtorEq, Event.revoke.injEq, false_or, eq_comm]

theorem shows_after (h : a.Regular events now token) : (a.after events).Shows a.digest now (a.InForce events) := by
  induction events using List.reverseRecOn with
  | nil => exact Registry.shows_empty fun _ _ => not_inForce_nil
  | append_singleton events e ih =>
      rw [after_snoc]
      exact shows_step (ih h.init) h

/-- A token is active exactly if it is in force and has not expired. -/
theorem introspect_after (h : a.Regular events now token) (id : String) {subject : String} :
    ((a.service now id).introspect token (a.after events)).1 = .ok subject ↔
      ∃ expiresAt, a.InForce events token ⟨subject, expiresAt⟩ ∧ now < expiresAt := by
  have hone : ∀ s u, a.InForce events s u → a.digest s = a.digest token → s = token :=
    fun s u hs => h.distinguished s token (Or.inr hs.changed) (Or.inl rfl)
  rw [service_introspect, (shows_after h).introspect_eq_ok hone]
  constructor
  · rintro ⟨⟨subject, expiresAt⟩, hforce, hactive, rfl⟩
    exact ⟨expiresAt, hforce, hactive⟩
  · rintro ⟨expiresAt, hforce, hactive⟩
    exact ⟨⟨subject, expiresAt⟩, hforce, hactive, rfl⟩

/-! ### What a step leaves alone -/

/-- A step that is no later than now changes nothing about the tokens that are active now, apart from the one that it
issues or revokes. -/
theorem get?_pruned_step {r : Registry} {k : String} (hpast : ∀ reading ∈ e.readings, reading ≤ now)
    (hother : ∀ changed, a.changed? e = some changed → k ≠ a.digest changed) :
    ((a.step r e).pruned now).active.get? k = some t ↔ (r.pruned now).active.get? k = some t := by
  cases e with
  | issue signedAt enteredAt id subject =>
      have hentered : enteredAt ≤ now := hpast enteredAt (List.mem_cons_of_mem _ List.mem_cons_self)
      have hne := hother _ rfl
      rw [step, issueAt_eq, Registry.get?_pruned_add hentered, or_iff_right fun heq => hne heq.1, and_iff_right hne]
  | introspect earlier looked => rw [step, introspect, Registry.pruned_introspect (hpast earlier List.mem_cons_self)]
  | revoke revoked => rw [step, revoke, Registry.get?_pruned_remove, and_iff_right (hother revoked rfl)]

end

/-! ### The registry and its history -/

/-- How an authority keeps its tokens, in every run and at every moment: which tokens are active and for whom; what is
issued, and until when it is active, to the greatest time that there is; that dropping what has expired by a time does
not show later; that a step shows for no token but the one that it issues or revokes; and that a token is revoked once
and for all. -/
structure FollowsHistory (a : TokenAuthority) : Prop where
  active : ∀ events now id token subject, a.Regular events now token →
    (((a.service now id).introspect token (a.after events)).1 = .ok subject ↔
      ∃ expiresAt, a.InForce events token ⟨subject, expiresAt⟩ ∧ now < expiresAt)
  issued : ∀ signedAt enteredAt id subject r, ∃ answer r' claims,
    a.issueAt signedAt enteredAt id subject r = (answer, r') ∧ a.issued signedAt id subject = answer ∧
      answer.expiresAt.toInt = min (signedAt.toInt + a.lifespan.toInt) Int64.maxValue.toInt ∧
      Verifier.claimsOf answer.token.toList = .ok claims ∧ claims.subject = subject ∧
      claims.expiresAt = answer.expiresAt ∧
      r'.active.get? (a.digest answer.token) = some ⟨subject, answer.expiresAt⟩
  pruned : ∀ r earlier now token subject, earlier ≤ now →
    ((a.introspect now token (r.pruned earlier)).1 = .ok subject ↔ (a.introspect now token r).1 = .ok subject)
  others : ∀ r e now token subject, (∀ reading ∈ e.readings, reading ≤ now) →
    (∀ changed, a.changed? e = some changed → a.digest token ≠ a.digest changed) →
    ((a.introspect now token (a.step r e)).1 = .ok subject ↔ (a.introspect now token r).1 = .ok subject)
  revoked : ∀ r token, a.revoke token (a.revoke token r).2 = a.revoke token r

/-- An authority is made for every positive lifespan, and its registry shows the history of each token. -/
theorem registry_follows_history (signer : Signer) (digest : String → String) {lifespan : Int64}
    (hpos : 0 < lifespan) :
    make signer digest lifespan = .ok ⟨signer, digest, lifespan, hpos⟩ ∧
      FollowsHistory ⟨signer, digest, lifespan, hpos⟩ := by
  let a : TokenAuthority := ⟨signer, digest, lifespan, hpos⟩
  refine ⟨dif_pos hpos, ?_, ?_, ?_, ?_, ?_⟩
  · intro events now id token subject h
    exact introspect_after h id
  · intro signedAt enteredAt id subject r
    refine ⟨_, _, _, issueAt_eq a .., rfl, expiresAt_issued a .., Signer.claimsOf_signClaims .., rfl, rfl, ?_⟩
    exact (Table.setTo_insert _ _ _).here
  · intro r earlier now token subject h
    rw [introspect, introspect, Registry.introspect_eq_ok_pruned, Registry.introspect_eq_ok_pruned,
      Registry.pruned_pruned h]
  · intro r e now token subject hpast hother
    rw [introspect, introspect, Registry.introspect_eq_ok_pruned, Registry.introspect_eq_ok_pruned]
    simp only [get?_pruned_step hpast hother]
  · intro r token
    rw [revoke, revoke, Registry.remove_remove]

/-- A signer of a scheme without signatures. -/
def unsigned : Signer := ⟨⟨id, fun _ _ => [], fun _ _ _ => true⟩, [], "issuer"⟩

def lasting : TokenAuthority := ⟨unsigned, id, Int64.maxValue, by decide⟩

def annToken : String := (lasting.issued 5 "first" "ann").token

def bobToken : String := (lasting.issued 7 "second" "bob").token

/-- Ann and bob are given tokens, and bob's is revoked. -/
def bobLeaves : List Event := [.issue 5 6 "first" "ann", .issue 7 7 "second" "bob", .revoke bobToken]

/-- Of two tokens that last to the end of time, the one that is revoked is active no more. -/
theorem registry_follows_history_bobLeaves :
    make unsigned id Int64.maxValue = .ok lasting ∧
      (lasting.issued 5 "first" "ann").expiresAt.toInt = Int64.maxValue.toInt ∧
      ((lasting.service 9 "").introspect annToken (lasting.after bobLeaves)).1 = .ok "ann" ∧
      ∀ subject, ((lasting.service 9 "").introspect bobToken (lasting.after bobLeaves)).1 ≠ .ok subject := by
  have hpos : 0 < Int64.maxValue := by decide
  obtain ⟨hmade, h⟩ : make unsigned id Int64.maxValue = .ok lasting ∧ lasting.FollowsHistory :=
    registry_follows_history unsigned id hpos
  have hpast : ∀ e ∈ bobLeaves, ∀ reading ∈ e.readings, reading ≤ 9 := by simp [bobLeaves, Event.readings]
  have hregular : ∀ token, lasting.Regular bobLeaves 9 token := fun _ => ⟨hpast, fun _ _ _ _ hdigest => hdigest⟩
  have hexpires : (lasting.issued 5 "first" "ann").expiresAt = Int64.maxValue := by decide
  have hother : annToken ≠ bobToken := fun heq => absurd (issued_eq_of_token heq).1 (by decide)
  refine ⟨hmade, by rw [hexpires], (h.active _ _ _ _ _ (hregular _)).2 ?_, fun subject hactive => ?_⟩
  · refine ⟨Int64.maxValue, ⟨[], _, _, rfl, ?_, ?_⟩, by decide⟩
    · rw [← hexpires]
      rfl
    · simp only [List.mem_cons, reduceCtorEq, Event.revoke.injEq, hother, List.not_mem_nil, or_self, not_false_eq_true]
  · obtain ⟨expiresAt, hforce, -⟩ := (h.active _ _ _ _ _ (hregular _)).1 hactive
    have hcases : lasting.InForce ([.issue 5 6 "first" "ann", .issue 7 7 "second" "bob"] ++ [.revoke bobToken]) bobToken
      ⟨subject, expiresAt⟩ := hforce
    rcases inForce_snoc.1 hcases with hentered | ⟨-, hkept⟩
    · cases hentered
    · exact hkept rfl

end TokenAuthority

end AccessControl
