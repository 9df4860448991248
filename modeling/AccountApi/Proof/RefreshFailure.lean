import AccountApi.Proof.SessionCommands

/-!
# A refresh that fails after its rotation was committed

The lookups and the signature come after the commit. When one of them fails the
client gets an error and keeps its old token, which is consumed: the retry is a
replay and revokes every session of the user. A login does these calls before it
stores its session (`login_failed`).

* `failed_refresh_keeps_token_iff`: a refresh that fails otherwise than by detecting a
  reuse leaves the table alone exactly when it did not rotate a live session first.
* `retry_after_failed_signature`: the two requests composed.
-/

namespace AccountApi

open Handler

variable {s t : List SessionEntity} {p : RefreshPorts} {hash : TokenHash} {e : SessionEntity}

/-- A refresh that fails, other than by detecting a reuse, changes nothing, and presenting the
same token again is never a reuse, unless it was one before. -/
def KeepsToken (p : RefreshPorts) (hash : TokenHash) (s : List SessionEntity) : Prop :=
  ∀ err t, (refreshSession p hash).run s = .error err t → err ≠ .refreshTokenReuseDetected →
    t = s ∧ ((∀ e ∈ s, e.refreshTokenHash = hash → ¬ e.revoked) →
      ∀ p' t', (refreshSession p' hash).run t ≠ .error .refreshTokenReuseDetected t')

/-- The presented token is that of a live session, its rotation is stored, and one of the calls
that follow fails. -/
def FailsAfterCommit (p : RefreshPorts) (hash : TokenHash) (s : List SessionEntity) : Prop :=
  (∃ e ∈ s, e.refreshTokenHash = hash ∧ Live p e) ∧
    (p.insertSuccessor && p.updatePredecessor) = true ∧
    (p.findById ≠ .found ∨ p.findMemberships = false ∨ p.sign = false)

/-- What follows the rotation fails exactly when one of the three calls does, and never as a reuse. -/
theorem answer_error : (∃ err, p.answer = .error err) ↔
    p.findById ≠ .found ∨ p.findMemberships = false ∨ p.sign = false := by
  unfold RefreshPorts.answer
  cases p.findById <;> cases p.findMemberships <;> cases p.sign <;> simp

theorem answer_not_reuse : p.answer ≠ .error .refreshTokenReuseDetected := by
  unfold RefreshPorts.answer
  cases p.findById <;> cases p.findMemberships <;> cases p.sign <;> simp

/-- **A failed refresh**: a reuse of a revoked session's token, a failure that changed nothing, or
one after the rotation of a live session was stored. -/
theorem refresh_error {err : AuthError} (h : (refreshSession p hash).run s = .error err t) :
    (err = .refreshTokenReuseDetected ∧ ∃ e ∈ s, e.refreshTokenHash = hash ∧ e.revoked) ∨
      (err ≠ .refreshTokenReuseDetected ∧ t = s) ∨
      (err ≠ .refreshTokenReuseDetected ∧ FailsAfterCommit p hash s) := by
  cases hfind : findByRefreshTokenHash hash s with
  | none => rw [refresh_unknown hfind] at h; cases h; exact Or.inr (Or.inl ⟨by simp, rfl⟩)
  | some e =>
    obtain ⟨he, hh⟩ := findByRefreshTokenHash_some hfind
    cases hr : e.revokedAt with
    | some d =>
      have hrev : e.revoked := by simp [SessionEntity.revoked, hr]
      cases hok : p.revokeAllByUserId with
      | true =>
        rw [refresh_reuse hfind hrev hok] at h; cases h
        exact Or.inl ⟨rfl, e, he, hh, hrev⟩
      | false =>
        rw [refresh_unrevoked hfind hrev hok] at h; cases h
        exact Or.inr (Or.inl ⟨by simp, rfl⟩)
    | none =>
      cases hx : e.refreshTokenExpiresAt.le p.now with
      | true => rw [refresh_expired hfind hr hx] at h; cases h; exact Or.inr (Or.inl ⟨by simp, rfl⟩)
      | false =>
        by_cases hs : (p.insertSuccessor && p.updatePredecessor) = false ∨
            saveRotated s (rotation p e).created.toEntity (rotation p e).revoked.toEntity = none
        · rw [refresh_unsaved hfind ⟨hr, hx⟩ hs] at h; cases h
          exact Or.inr (Or.inl ⟨by simp, rfl⟩)
        · rw [not_or, Bool.not_eq_false, ← ne_eq, Option.ne_none_iff_exists'] at hs
          obtain ⟨hok, u, hu⟩ := hs
          rw [refresh_rotate hfind ⟨hr, hx⟩ hok hu] at h
          cases ha : p.answer with
          | ok r => rw [ha] at h; cases h
          | error err' =>
            rw [ha] at h; cases h
            refine Or.inr (Or.inr ⟨fun heq => answer_not_reuse (heq ▸ ha), ⟨e, he, hh, hr, hx⟩, hok, ?_⟩)
            exact answer_error.1 ⟨_, ha⟩

/-- **A failed refresh keeps the client's token exactly when it does not fail after the commit.** -/
theorem failed_refresh_keeps_token_iff (hs : TableOK s) (hf : Command.fresh s p.generated = true) :
    KeepsToken p hash s ↔ ¬ FailsAfterCommit p hash s := by
  constructor
  · rintro hkeep ⟨⟨e, he, hh, hl⟩, hok, hfail⟩
    obtain ⟨err, ha⟩ := answer_error.2 hfail
    have hrun := refresh_rotate (hs.find he hh) hl hok (saveRotated_rotation hs hf he)
    rw [ha] at hrun
    have hsame := (hkeep err _ hrun fun heq => answer_not_reuse (heq ▸ ha)).1
    -- the successor's row is there
    have := congrArg List.length hsame
    simp [rotatedTable] at this
  · intro hno err t h hne
    have hsame : t = s := by
      rcases refresh_error h with ⟨heq, -⟩ | ⟨-, hsame⟩ | ⟨-, hfail⟩
      · exact absurd heq hne
      · exact hsame
      · exact absurd hfail hno
    subst hsame
    refine ⟨rfl, fun hunrevoked p' t' h' => ?_⟩
    rcases refresh_error h' with ⟨-, e, he, hh, hrev⟩ | ⟨hne', -⟩ | ⟨hne', -⟩
    · exact hunrevoked e he hh hrev
    · exact hne' rfl
    · exact hne' rfl

/-- One live session of user 7. -/
def liveSession : List SessionEntity := [⟨0, 7, 0, .millis 100, none, none, .millis 0, .millis 0⟩]

/-- A refresh at time `n`, whose signature answers `sign`. -/
def refreshPorts (n : ℕ) (insert sign : Bool) : RefreshPorts :=
  ⟨.millis n, ⟨n, n, .millis 100⟩, true, insert, true, .found, true, sign⟩

theorem failed_refresh_keeps_token_insert : KeepsToken (refreshPorts 1 false false) 0 liveSession :=
  (failed_refresh_keeps_token_iff ⟨by decide, by decide⟩ (by decide)).2
    fun h => absurd h.2.1 (by decide)

/-- **A failed signature burns the token**: the session is revoked, and the retry with the same
token is a reuse that revokes its successor too. -/
theorem retry_after_failed_signature : ∃ t t',
    (refreshSession (refreshPorts 1 true false) 0).run liveSession = .error .failure t ∧
    t ≠ liveSession ∧
    (refreshSession (refreshPorts 2 true true) 0).run t = .error .refreshTokenReuseDetected t' ∧
    t'.all (·.revokedAt.isSome) = true :=
  ⟨_, _, rfl, by decide, rfl, by decide⟩

end AccountApi
