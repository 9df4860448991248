import AccountApi.Proof.SessionInv

/-!
# A refresh token is single-use

* `exec_keeps`: a row is never removed, un-revoked or, once revoked, re-linked.
* `not_rotated_exec`: a refresh that presents the token of a revoked session never
  commits a rotation.
* `refresh_token_single_use`: at most one refresh rotates a given token, and a
  revoked session stays revoked and is never exchanged again.
-/

namespace AccountApi

open Transition

variable {ι : Type} {S : System ι} {s t : State ι}

/-- Two refreshes that have rotated presented different tokens: the row of a token is linked
to the successor of the one that consumed it. -/
theorem rotated_unique (hI : Inv S s) {i j : ι} {r r' : RefreshRequest}
    (hi : S.requests i = .refresh r) (hj : S.requests j = .refresh r')
    (hh : r.presentedHash = r'.presentedHash) (hri : (s.phase i).rotated = true)
    (hrj : (s.phase j).rotated = true) : i = j := by
  obtain ⟨e, he, hl⟩ := (hI.views i r hi).rotated hri
  obtain ⟨e', he', hl'⟩ := (hI.views j r' hj).rotated hrj
  obtain rfl := hI.hash_inj he.1 he'.1 (he.2.1.trans (hh.trans he'.2.1.symm))
  exact S.newId.injective (Option.some.inj (hl.symm.trans hl'))

variable [Fintype ι] [DecidableEq ι]

/-- Every row has a later version after a step. -/
theorem step_keeps (hI : Inv S s) {a : ι × Event} (h : S.step s a = some t) {e : SessionEntity}
    (he : e ∈ s.sessions) : ∃ e' ∈ t.sessions, Keeps e e' := by
  obtain ⟨i, ev⟩ := a
  obtain ⟨p, eff, hm, rfl⟩ := System.step_move h
  have hok := move_effect hI hm
  refine ⟨eff.rewrite e, ?_, hok.keeps e he⟩
  simp only [hok.apply]
  exact List.mem_append_left _ (List.mem_map_of_mem he)

theorem Keeps.trans {a b c : SessionEntity} (h : Keeps a b) (h' : Keeps b c) : Keeps a c :=
  ⟨h'.id.trans h.id, h'.userId.trans h.userId, h'.hash.trans h.hash,
    fun hr => h'.revoked (h.revoked hr), fun hr => (h'.link (h.revoked hr)).trans (h.link hr)⟩

/-- **Every row has a later version after a run**: none is removed or un-revoked. -/
theorem exec_keeps (hI : Inv S s) {as : List (ι × Event)} (h : exec S.step s as = some t)
    {e : SessionEntity} (he : e ∈ s.sessions) : ∃ e' ∈ t.sessions, Keeps e e' := by
  refine (invariant (I := fun u => Inv S u ∧ ∃ e' ∈ u.sessions, Keeps e e') ?_
    ⟨hI, e, he, Keeps.refl e⟩ h).2
  rintro u a v ⟨hI, e', he', hk⟩ hstep
  obtain ⟨e'', he'', hk'⟩ := step_keeps hI hstep he'
  exact ⟨inv_step hI hstep, e'', he'', hk.trans hk'⟩

/-- Only a commit turns a refresh into one that has rotated. -/
theorem move_rotated {env : Env} {new : NewSession} {req : Request} {ev : Event} {p p' : Phase}
    {eff : Effect} (h : Move env new req ev p p' eff) (hr : p'.rotated = true) :
    p.rotated = true ∨ ∃ res, p.result = some res := by
  cases h with
  | commit _ res => exact Or.inr ⟨res, rfl⟩
  | _ => first | exact Or.inl rfl | cases hr

/-- A refresh that presents the token of a revoked session does not rotate. -/
theorem not_rotated_step (hI : Inv S s) {a : ι × Event} (h : S.step s a = some t) {i : ι}
    {r : RefreshRequest} (hr : S.requests i = .refresh r)
    {e : SessionEntity} (he : Consumed s.sessions r e) (hn : (s.phase i).rotated = false) :
    (t.phase i).rotated = false := by
  obtain ⟨j, ev⟩ := a
  obtain ⟨p, eff, hm, rfl⟩ := System.step_move h
  by_cases hij : i = j
  · subst hij
    simp only [Function.update_self]
    refine Bool.eq_false_iff.2 fun hp => ?_
    rcases move_rotated hm hp with hold | ⟨res, hres⟩
    · rw [hn] at hold; cases hold
    -- the callback saw the row un-revoked, and the row is locked since
    obtain ⟨c, now, hc, hh, hcb⟩ := (hI.views i r hr).rotating res hres
    obtain ⟨hrev, -, -⟩ := rotateCallback_rotate hcb
    obtain rfl := hI.hash_inj he.1 hc (he.2.1.trans hh.symm)
    have hcon := he.2.2
    simp only [SessionEntity.revoked, toEntity_revokedAt] at hcon
    rw [SessionAggregate.isRevoked, hcon] at hrev; cases hrev
  · simpa [Function.update_of_ne hij] using hn

/-- **A revoked session's token is never exchanged**, along any run. -/
theorem not_rotated_exec (hI : Inv S s) {as : List (ι × Event)} (h : exec S.step s as = some t)
    {i : ι} {r : RefreshRequest} (hr : S.requests i = .refresh r) {e : SessionEntity}
    (he : Consumed s.sessions r e) (hn : (s.phase i).rotated = false) :
    (t.phase i).rotated = false := by
  refine (invariant (I := fun u => Inv S u ∧ (∃ e, Consumed u.sessions r e) ∧
    (u.phase i).rotated = false) ?_ ⟨hI, ⟨e, he⟩, hn⟩ h).2.2
  rintro u a v ⟨hI, ⟨e, he⟩, hn⟩ hstep
  obtain ⟨e', he', hk⟩ := step_keeps hI hstep he.1
  exact ⟨inv_step hI hstep, ⟨e', he', hk.hash.trans he.2.1, hk.revoked he.2.2⟩,
    not_rotated_step hI hstep hr he hn⟩

/-- **A refresh token is single-use.** In every state reached by logins, refreshes and
`revokeAllByUserId` updates in any order: two refreshes that committed a successor presented
different tokens; and a revoked session is still revoked in every later state, where no
refresh with its token has committed a rotation unless it already had. -/
theorem refresh_token_single_use (S : System ι) {as bs : List (ι × Event)} {s t : State ι}
    (hs : exec S.step (S.start []) as = some s) (ht : exec S.step s bs = some t) :
    (∀ i j r r', S.requests i = .refresh r → S.requests j = .refresh r' →
      r.presentedHash = r'.presentedHash → (s.phase i).rotated = true →
      (s.phase j).rotated = true → i = j) ∧
    ∀ e ∈ s.sessions, e.revoked →
      (∃ e' ∈ t.sessions, e'.id = e.id ∧ e'.refreshTokenHash = e.refreshTokenHash ∧ e'.revoked) ∧
      ∀ i r, S.requests i = .refresh r → r.presentedHash = e.refreshTokenHash →
        (s.phase i).rotated = false → (t.phase i).rotated = false := by
  have hI := inv_exec (inv_start S) hs
  refine ⟨fun i j r r' hi hj hh hri hrj => rotated_unique hI hi hj hh hri hrj, ?_⟩
  intro e he hrev
  obtain ⟨e', he', hk⟩ := exec_keeps hI ht he
  refine ⟨⟨e', he', hk.id, hk.hash, hk.revoked hrev⟩, ?_⟩
  intro i r hr hh hn
  exact not_rotated_exec hI ht hr ⟨he, hh.symm, hrev⟩ hn

/-- One login, whose token three refreshes present: request 1 rotates it, and its successor
is presented by request 2. -/
def replaySystem : System (Fin 4) where
  requests i := match i with
    | 0 => .login ⟨7, .millis 100⟩
    | 1 => .refresh ⟨0, .millis 100⟩
    | 2 => .refresh ⟨1, .millis 100⟩
    | 3 => .refresh ⟨0, .millis 100⟩
  newId := Fin.valEmbedding
  newHash := Fin.valEmbedding
  scanOrder := id
  capacity := none

/-- Requests 0 and 1 run to their commit. -/
def rotateOnce : List (Fin 4 × Event) :=
  [(0, .saveSession (.millis 0)), (1, .begin), (1, .select), (1, .callback (.millis 1)),
    (1, .insertSuccessor), (1, .updatePredecessor), (1, .commit)]

/-- Request 3 replays the consumed token, up to the start of its UPDATE. -/
def replay : List (Fin 4 × Event) :=
  [(3, .begin), (3, .select), (3, .callback (.millis 3)), (3, .startRevokeAll (.millis 3))]

/-- The UPDATE of request 3 over a chain at rest. -/
def revokeChain : List (Fin 4 × Event) := [(3, .visit), (3, .endRevokeAll), (3, .rollback)]

/-- Request 2 rotates the newest session of the chain up to its commit. -/
def rotateNext : List (Fin 4 × Event) :=
  [(2, .begin), (2, .select), (2, .callback (.millis 2)), (2, .insertSuccessor), (2, .updatePredecessor)]

theorem refresh_token_single_use_replay :
    ∃ s t, exec replaySystem.step (replaySystem.start []) rotateOnce = some s ∧
      exec replaySystem.step s replay = some t ∧ (s.phase 1).rotated = true ∧
      (t.phase 3).rotated = false := by
  obtain ⟨s, hs, h1, e, he, hrev, hh, h3⟩ : ∃ s,
      exec replaySystem.step (replaySystem.start []) rotateOnce = some s ∧
      (s.phase 1).rotated = true ∧ ∃ e ∈ s.sessions, e.revoked ∧ e.refreshTokenHash = 0 ∧
      (s.phase 3).rotated = false :=
    ⟨_, rfl, by decide, _, List.mem_cons_self, by decide, by decide, by decide⟩
  obtain ⟨t, ht⟩ : ∃ t, exec replaySystem.step (replaySystem.start []) (rotateOnce ++ replay) = some t :=
    ⟨_, rfl⟩
  obtain ⟨u, hu, hut⟩ := exec_append.1 ht
  obtain rfl := Option.some.inj (hs.symm.trans hu)
  exact ⟨s, t, hs, hut, h1,
    ((refresh_token_single_use replaySystem hs hut).2 e he hrev).2 3 _ rfl hh.symm h3⟩

end AccountApi
