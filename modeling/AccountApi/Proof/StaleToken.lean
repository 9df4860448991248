import AccountApi.Proof.SessionCommands

/-!
# Who triggers a user-wide revocation

The callback takes `revokedAt` for a sign of reuse. A session can also be revoked
as a bystander, by the `revokeAllByUserId` of another session's reuse: its token was
never exchanged, and presenting it revokes every session the user has by then.

`sparesOthers_iff`: on a sequential run, presenting the tokens of sessions without
a successor revokes nothing else if and only if each of these sessions is un-revoked
at that moment, or its user has no other un-revoked session, or the UPDATE fails.
`stale_token_ends_new_login` is a run in which neither holds.
-/

namespace AccountApi

open Handler Transition

variable {s t : List SessionEntity} {c : Command}

/-- The command is a refresh with the token of `e`, which was never exchanged. -/
def PresentsUnexchanged (s : List SessionEntity) (c : Command) (e : SessionEntity) : Prop :=
  (∃ p, c = .refresh p e.refreshTokenHash) ∧ e ∈ s ∧ e.replacedBySessionId = none

/-- Presenting a token that was never exchanged revokes no session but its own. -/
def SparesOthers (s : List SessionEntity) (c : Command) : Prop :=
  ∀ e, PresentsUnexchanged s c e → ∀ x ∈ s, x.id ≠ e.id → x.revokedAt = none →
    ∃ x' ∈ table (c.execute.run s), x'.id = x.id ∧ x'.revokedAt = none

/-- An UPDATE of the command would fail. -/
def Command.revokeFails : Command → Bool
  | login _ => false
  | refresh p _ => !p.revokeAllByUserId

/-- The session of a presented token that was never exchanged is un-revoked, or its user has no
other un-revoked session; or the UPDATE fails. -/
def NothingToRevoke (s : List SessionEntity) (c : Command) : Prop :=
  ∀ e, PresentsUnexchanged s c e →
    c.revokeFails = true ∨ e.revokedAt = none ∨ ∀ x ∈ s, x.userId = e.userId → x.id ≠ e.id → x.revoked

theorem revokedAll_mem {userId : Uuid} {now : Date} {x : SessionEntity} (hx : x ∈ s)
    (h : x.userId ≠ userId) : x ∈ revokedAll userId now s :=
  List.mem_map.2 ⟨x, hx, by simp [h]⟩

theorem revokedAll_revoked {userId : Uuid} {now : Date} {x : SessionEntity}
    (hx : x ∈ revokedAll userId now s) (h : x.userId = userId) : x.revoked := by
  obtain ⟨y, -, rfl⟩ := List.mem_map.1 hx
  by_cases hy : (y.userId = userId && y.revokedAt.isNone) = true
  · rw [if_pos hy]; rfl
  · rw [if_neg hy] at h ⊢
    simpa [h, SessionEntity.revoked, Option.isSome_iff_ne_none] using hy

/-- A command spares the other sessions exactly when there is nothing to revoke. -/
theorem sparesOthers_step_iff (hs : TableOK s) (hf : Command.fresh s c.generated = true) :
    SparesOthers s c ↔ NothingToRevoke s c := by
  refine forall_congr' fun e => forall_congr' fun hpres => ?_
  obtain ⟨⟨p, rfl⟩, he, hlink⟩ := hpres
  have hfind := hs.find he rfl
  cases hr : e.revokedAt with
  | some d =>
    have hrev : e.revoked := by simp [SessionEntity.revoked, hr]
    cases hok : p.revokeAllByUserId with
    | false =>
      have htable : table ((refreshSession p e.refreshTokenHash).run s) = s := by
        rw [refresh_unrevoked hfind hrev hok]; rfl
      refine iff_of_true (fun x hx hne hxr => ?_) (Or.inl (by simp [Command.revokeFails, hok]))
      exact ⟨x, by rw [Command.execute, htable]; exact hx, rfl, hxr⟩
    | true =>
      have htable : table ((refreshSession p e.refreshTokenHash).run s) =
          revokedAll e.userId p.now s := by
        rw [refresh_reuse hfind hrev hok]; rfl
      simp only [Command.execute, htable, Command.revokeFails, hok, Bool.not_true, Bool.false_eq_true, reduceCtorEq,
        false_or]
      constructor
      · intro h x hx hu hne
        by_contra hxr
        obtain ⟨x', hx', hid, hun⟩ := h x hx hne (by simpa [SessionEntity.revoked] using hxr)
        have hu' : x'.userId = e.userId := by
          obtain ⟨y, hy, rfl⟩ := List.mem_map.1 hx'
          obtain rfl : y = x := hs.id_inj hy hx (by rw [← hid]; split <;> rfl)
          split <;> exact hu
        have := revokedAll_revoked hx' hu'
        simp [SessionEntity.revoked, hun] at this
      · intro h x hx hne hxr
        refine ⟨x, revokedAll_mem hx fun hu => ?_, rfl, hxr⟩
        have := h x hx hu hne
        simp [SessionEntity.revoked, hxr] at this
  | none =>
    -- an expired session leaves the table alone, a live one is the only row rewritten
    refine iff_of_true (fun x hx hne hxr => ?_) (Or.inr (Or.inl rfl))
    rcases refresh_table e.refreshTokenHash hs hf with
      h | ⟨e', he', hh, ⟨hrev, -⟩ | ⟨-, h⟩⟩
    · exact ⟨x, by rw [Command.execute, h]; exact hx, rfl, hxr⟩
    · rw [List.inj_on_of_nodup_map hs.hashes he' he hh] at hrev
      simp [SessionEntity.revoked, hr] at hrev
    · obtain rfl := List.inj_on_of_nodup_map hs.hashes he' he hh
      refine ⟨x, ?_, rfl, hxr⟩
      rw [Command.execute, h]
      exact List.mem_append_left _ (List.mem_map.2 ⟨x, hx, if_neg hne⟩)

theorem tableOK_nil : TableOK [] := ⟨List.nodup_nil, List.nodup_nil⟩

/-- **Presenting tokens that were never exchanged revokes nothing else on a sequential run exactly
when each of them finds nothing to revoke.** -/
theorem sparesOthers_iff {cs : List Command} (h : exec Command.step [] cs = some t) :
    Along Command.step SparesOthers [] cs ↔ Along Command.step NothingToRevoke [] cs := by
  refine along_congr (I := TableOK) (fun s c t hs h => tableOK_step hs h) ?_ tableOK_nil h
  intro s c t hs h
  simp only [Command.step, Option.ite_none_right_eq_some] at h
  exact sparesOthers_step_iff hs h.1

/-- A login of user 7 at time `n`, which generates session and token `n`. -/
def loginAt (n : ℕ) : Command :=
  .login ⟨7, .millis n, ⟨n, n, .millis 1000⟩, true, .found, true, true, true, true⟩

/-- A refresh of `hash` at time `n`, which generates session and token `n`. -/
def refreshAt (n : ℕ) (hash : TokenHash) : Command :=
  .refresh ⟨.millis n, ⟨n, n, .millis 1000⟩, true, true, true, .found, true, true⟩ hash

/-- Two chains of one user; the token of the first is replayed, then the user logs in again. -/
def replayThenLogin : List Command :=
  [loginAt 1, loginAt 2, refreshAt 3 1, refreshAt 4 1, loginAt 5]

theorem sparesOthers_rotation : Along Command.step SparesOthers [] [loginAt 1, refreshAt 2 1] := by
  obtain ⟨t, ht⟩ : ∃ t, exec Command.step [] [loginAt 1, refreshAt 2 1] = some t := ⟨_, rfl⟩
  refine (sparesOthers_iff ht).2 (along_of_check (fun s _ => s.all (·.revokedAt.isNone)) ?_
    (by decide))
  rintro s c hall e ⟨-, he, -⟩
  exact Or.inr (Or.inl (by simpa using List.all_eq_true.1 hall e he))

/-- **A stale token ends a new login**: session 2, revoked as a bystander and never exchanged, is
presented after the new login, whose session 5 is revoked. -/
theorem stale_token_ends_new_login : ∃ s t, exec Command.step [] replayThenLogin = some s ∧
    Command.step s (refreshAt 6 2) = some t ∧
    (∃ e ∈ s, e.refreshTokenHash = 2 ∧ e.replacedBySessionId = none ∧ e.id ≠ 5) ∧
    (∃ x ∈ s, x.id = 5 ∧ x.revokedAt = none) ∧ ∀ x ∈ t, x.id = 5 → x.revoked :=
  ⟨_, _, rfl, rfl, by decide, by decide, by decide⟩

end AccountApi
