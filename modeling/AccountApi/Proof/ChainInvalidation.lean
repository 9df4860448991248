import AccountApi.Lib.Chain
import AccountApi.Proof.SingleUse

/-!
# Replaying a consumed token invalidates its chain

The sessions of a chain are linked by `replacedBySessionId` (`SameChain`). When a
refresh ends in `RefreshTokenReuseDetectedException`, its `revokeAllByUserId` has
revoked every session of the chain, now and for ever (`chain_invalidated`),
unless the UPDATE raced with a rotation in the same chain: `Races` is the commit
of a rotation whose row the UPDATE has in its snapshot but has not visited yet.
The UPDATE then finds that row revoked and skips it, and the successor is not in
its snapshot. `chain_survives_replay` is such a run.

`chain_back` is the step lemma: a chain only grows by the commit of a rotation of
one of its un-revoked sessions.
-/

namespace AccountApi

open Transition Relation

/-- Session `a` was replaced by session `b`. -/
def Linked (sessions : List SessionEntity) (a b : Uuid) : Prop :=
  ∃ e ∈ sessions, e.id = a ∧ e.replacedBySessionId = some b

/-- Predecessors and descendants: linked in any number of steps, in either direction. -/
def SameChain (sessions : List SessionEntity) : Uuid → Uuid → Prop := EqvGen (Linked sessions)

/-- Every session of the chain of `k` is revoked. -/
def ChainDead (sessions : List SessionEntity) (k : Uuid) : Prop :=
  ∀ x ∈ sessions, SameChain sessions k x.id → x.revoked

/-- A session with a successor is revoked, and its successor is a session of the same user. -/
def LinkInv (sessions : List SessionEntity) : Prop :=
  ∀ e ∈ sessions, ∀ n, e.replacedBySessionId = some n →
    e.revoked ∧ ∃ e' ∈ sessions, e'.id = n ∧ e'.userId = e.userId

variable {ι : Type} {S : System ι} {s t : State ι}

theorem commit_spec (hI : Inv S s) {i : ι} {r : RefreshRequest} {res : RotateResult}
    (hr : S.requests i = .refresh r) (hp : s.phase i = .updated res) :
    ∃ (c : SessionAggregate) (now : Date), c.toEntity ∈ s.sessions ∧ c.isRevoked = false ∧
      res = ⟨c.revoke (S.newId i) now, (S.newSession i).build c.userId now⟩ := by
  obtain ⟨c, now, hc, -, hcb⟩ := (hI.views i r hr).rotating res (by rw [hp]; rfl)
  obtain ⟨hrev, -, rfl⟩ := rotateCallback_rotate hcb
  exact ⟨c, now, hc, hrev, rfl⟩

theorem move_rotate {env : Env} {new : NewSession} {req : Request} {ev : Event} {p p' : Phase}
    {a b : SessionEntity} (h : Move env new req ev p p' (.rotate a b)) :
    ∃ r res, req = .refresh r ∧ ev = .commit ∧ p = .updated res ∧ a = res.revoked.toEntity ∧
      b = res.created.toEntity := by
  cases h
  exact ⟨_, _, rfl, rfl, rfl, rfl, rfl⟩

/-- Everything but the commit of a rotation leaves the links alone. -/
theorem rewrite_link {eff : Effect} (h : ∀ a b, eff ≠ .rotate a b) (e : SessionEntity) :
    (eff.rewrite e).replacedBySessionId = e.replacedBySessionId := by
  cases eff with
  | rotate a b => exact absurd rfl (h a b)
  | revokeAll ids now => simp only [Effect.rewrite, markRevoked]; split <;> rfl
  | _ => rfl

/-- The links after a step: the old ones, and after a commit the one to the successor. -/
theorem linked_step [Fintype ι] [DecidableEq ι] (hI : Inv S s) {i : ι} {ev : Event}
    (h : S.step s (i, ev) = some t) {a b : Uuid} (hl : Linked t.sessions a b) :
    Linked s.sessions a b ∨
      ∃ r res, S.requests i = .refresh r ∧ ev = .commit ∧ s.phase i = .updated res ∧
        a = res.revoked.id ∧ b = S.newId i := by
  obtain ⟨p, eff, hm, rfl⟩ := System.step_move h
  have hok := move_effect hI hm
  simp only [hok.apply] at hl
  obtain ⟨x, hx, rfl, hlink⟩ := hl
  rw [List.mem_append] at hx
  rcases hx with hx | hx
  swap
  · rw [(hok.fresh x hx).2.2.2] at hlink; cases hlink
  obtain ⟨e, he, rfl⟩ := List.mem_map.1 hx
  have hid := (hok.keeps e he).id
  by_cases hrot : ∀ a b, eff ≠ .rotate a b
  · rw [rewrite_link hrot] at hlink
    exact Or.inl ⟨e, he, hid.symm, hlink⟩
  push Not at hrot
  obtain ⟨a, b, rfl⟩ := hrot
  obtain ⟨r, res, hreq, rfl, hp, rfl, -⟩ := move_rotate hm
  simp only [Effect.rewrite] at hlink hid ⊢
  split at hlink
  · rename_i heq
    obtain ⟨c, now, -, -, rfl⟩ := commit_spec hI hreq hp
    rw [if_pos heq]
    exact Or.inr ⟨r, _, hreq, trivial, hp, rfl, (Option.some.inj hlink).symm⟩
  · rename_i hne
    rw [if_neg hne]
    exact Or.inl ⟨e, he, rfl, hlink⟩

theorem linkInv_step [Fintype ι] [DecidableEq ι] (hI : Inv S s) (hL : LinkInv s.sessions)
    {a : ι × Event} (h : S.step s a = some t) : LinkInv t.sessions := by
  obtain ⟨i, ev⟩ := a
  intro x hx n hn
  have hI' := inv_step hI h
  -- the later version of an old row or the row the commit adds
  rcases linked_step hI h ⟨x, hx, rfl, hn⟩ with ⟨e, he, hid, hl⟩ | ⟨r, res, hr, rfl, hp, hid, rfl⟩
  · obtain ⟨hrev, e', he', hid', hu⟩ := hL e he n hl
    obtain ⟨y, hy, hk⟩ := step_keeps hI h he
    obtain ⟨y', hy', hk'⟩ := step_keeps hI h he'
    obtain rfl := hI'.id_inj hx hy (hid.symm.trans hk.id.symm)
    exact ⟨hk.revoked hrev, y', hy', hk'.id.trans hid',
      hk'.userId.trans (hu.trans hk.userId.symm)⟩
  · obtain ⟨c, now, hc, hrev, rfl⟩ := commit_spec hI hr hp
    obtain ⟨p, eff, hm, rfl⟩ := System.step_move h
    have hok := move_effect hI hm
    rw [hr, hp] at hm
    cases hm
    simp only [hok.apply] at hx hn ⊢
    have hmem : (c.revoke (S.newId i) now).toEntity ∈
        s.sessions.map (Effect.rewrite (.rotate (c.revoke (S.newId i) now).toEntity
          ((S.newSession i).build c.userId now).toEntity)) := by
      refine List.mem_map.2 ⟨c.toEntity, hc, ?_⟩
      simp only [Effect.rewrite]
      exact if_pos rfl
    have hx' : x = (c.revoke (S.newId i) now).toEntity := hI'.id_inj
      (by simpa only [hok.apply] using hx)
      (by simpa only [hok.apply] using List.mem_append_left _ hmem) hid
    subst hx'
    exact ⟨rfl, ((S.newSession i).build c.userId now).toEntity,
      List.mem_append_right _ (by simp [Effect.inserted]), rfl, rfl⟩

/-- An id that no row has is on no link. -/
theorem not_linked (hL : LinkInv s.sessions) {n : Uuid} (hn : ∀ e ∈ s.sessions, e.id ≠ n) :
    (∀ a, ¬ Linked s.sessions n a) ∧ ∀ a, ¬ Linked s.sessions a n := by
  constructor
  · rintro a ⟨e, he, hid, -⟩; exact hn e he hid
  · rintro a ⟨e, he, -, hl⟩
    obtain ⟨-, e', he', hid, -⟩ := hL e he n hl
    exact hn e' he' hid

/-- The chain of a row consists of rows of the same user. -/
theorem sameChain_user (hI : Inv S s) (hL : LinkInv s.sessions) {e x : SessionEntity}
    (he : e ∈ s.sessions) (hx : x ∈ s.sessions) (h : SameChain s.sessions e.id x.id) :
    x.userId = e.userId := by
  have key := (Chain.eqvGen_closed
    (p := fun k => ∃ y ∈ s.sessions, y.id = k ∧ y.userId = e.userId) ?_ h).1 ⟨e, he, rfl, rfl⟩
  · obtain ⟨y, hy, hid, hu⟩ := key
    rw [hI.id_inj hx hy hid.symm]; exact hu
  rintro a b ⟨y, hy, rfl, hl⟩
  obtain ⟨-, y', hy', rfl, hu⟩ := hL y hy b hl
  constructor
  · rintro ⟨z, hz, hid, hzu⟩
    rw [hI.id_inj hz hy hid] at hzu
    exact ⟨y', hy', rfl, hu.trans hzu⟩
  · rintro ⟨z, hz, hid, hzu⟩
    rw [hI.id_inj hz hy' hid] at hzu
    exact ⟨y, hy, rfl, hu.symm.trans hzu⟩

/-- **A chain grows only by rotating one of its un-revoked sessions.** A session that is in the
chain of `k` after a step was there before it, or is the successor just committed. -/
theorem chain_back [Fintype ι] [DecidableEq ι] (hI : Inv S s) (hL : LinkInv s.sessions) {i : ι}
    {ev : Event} (h : S.step s (i, ev) = some t) {e x : SessionEntity} (he : e ∈ s.sessions)
    (hx : x ∈ t.sessions) (hc : SameChain t.sessions e.id x.id) :
    (∃ y ∈ s.sessions, SameChain s.sessions e.id y.id ∧ Keeps y x) ∨
      ∃ r res c, S.requests i = .refresh r ∧ ev = .commit ∧ s.phase i = .updated res ∧
        res.revoked.id = c.id ∧ c ∈ s.sessions ∧ c.revokedAt = none ∧
        SameChain s.sessions e.id c.id := by
  -- an old row, or one under the id the request generated, unused until then
  have hrow : (∃ y ∈ s.sessions, Keeps y x) ∨
      ((s.phase i).stored = false ∧ x.id = S.newId i) := by
    obtain ⟨p, eff, hm, rfl⟩ := System.step_move h
    have hok := move_effect hI hm
    simp only [hok.apply, List.mem_append] at hx
    rcases hx with hx | hx
    · obtain ⟨y, hy, rfl⟩ := List.mem_map.1 hx
      exact Or.inl ⟨y, hy, hok.keeps y hy⟩
    · exact Or.inr ⟨(move_inserted hm (List.ne_nil_of_mem hx)).1, (hok.fresh x hx).1⟩
  by_cases hcommit : ∃ r res, S.requests i = .refresh r ∧ ev = .commit ∧ s.phase i = .updated res
  · obtain ⟨r, res, hr, rfl, hp⟩ := hcommit
    obtain ⟨c, now, hcm, hrev, rfl⟩ := commit_spec hI hr hp
    have hun := hI.unused i (by rw [hp]; rfl)
    obtain ⟨hl, hl'⟩ := not_linked hL (fun e he => (hun e he).1)
    have hgrow := Chain.eqvGen_grow (r := Linked s.sessions) (s := c.id) (n := S.newId i)
      (fun a b hab => ?_) hl hl' (hun e he).1 (hc.symm _ _)
    swap
    · rcases linked_step hI h hab with hold | ⟨r', res', -, -, hp', rfl, rfl⟩
      · exact Or.inl hold
      · rw [hp] at hp'; cases hp'; exact Or.inr ⟨rfl, rfl⟩
    rcases hrow with ⟨y, hy, hk⟩ | ⟨-, hid⟩
    · left
      rw [if_neg (by rw [hk.id]; exact (hun y hy).1), hk.id] at hgrow
      exact ⟨y, hy, hgrow.symm _ _, hk⟩
    · right
      rw [if_pos hid] at hgrow
      exact ⟨r, _, c.toEntity, hr, rfl, hp, rfl, hcm,
        by simpa [SessionAggregate.isRevoked] using hrev, hgrow.symm _ _⟩
  · have hold : SameChain s.sessions e.id x.id := by
      refine EqvGen.mono (r := Linked t.sessions) (fun a b hab => ?_) _ _ hc
      rcases linked_step hI h hab with hold | ⟨r, res, hr, he, hp, -⟩
      · exact hold
      · exact absurd ⟨r, res, hr, he, hp⟩ hcommit
    rcases hrow with ⟨y, hy, hk⟩ | ⟨hst, hid⟩
    · exact Or.inl ⟨y, hy, hk.id ▸ hold, hk⟩
    · -- a login's session is the root of a new chain
      have hun := hI.unused i hst
      obtain ⟨hl, hl'⟩ := not_linked hL (fun e he => (hun e he).1)
      rw [hid] at hold
      exact absurd (Chain.eqvGen_isolated hl hl' (hold.symm _ _)) (hun e he).1

/-- A dead chain consists of the rows it had, in every later state. -/
theorem chain_frozen [Fintype ι] [DecidableEq ι] (hI : Inv S s) (hL : LinkInv s.sessions)
    {as : List (ι × Event)} (h : exec S.step s as = some t) {e : SessionEntity}
    (he : e ∈ s.sessions) (hd : ChainDead s.sessions e.id) :
    ∀ x ∈ t.sessions, SameChain t.sessions e.id x.id →
      ∃ y ∈ s.sessions, SameChain s.sessions e.id y.id ∧ Keeps y x := by
  refine (invariant (I := fun u => Inv S u ∧ LinkInv u.sessions ∧ (∃ e' ∈ u.sessions, Keeps e e') ∧
    ∀ x ∈ u.sessions, SameChain u.sessions e.id x.id →
      ∃ y ∈ s.sessions, SameChain s.sessions e.id y.id ∧ Keeps y x) ?_
    ⟨hI, hL, ⟨e, he, Keeps.refl e⟩, fun x hx hc => ⟨x, hx, hc, Keeps.refl x⟩⟩ h).2.2.2
  rintro u ⟨i, ev⟩ v ⟨hI, hL, ⟨e', he', hk⟩, hold⟩ hstep
  have hlater : ∃ e'' ∈ v.sessions, Keeps e e'' := by
    obtain ⟨e'', he'', hk'⟩ := step_keeps hI hstep he'
    exact ⟨e'', he'', hk.trans hk'⟩
  refine ⟨inv_step hI hstep, linkInv_step hI hL hstep, hlater, fun x hx hc => ?_⟩
  rcases chain_back hI hL hstep he' hx (hk.id ▸ hc) with
    ⟨y, hy, hcy, hky⟩ | ⟨r, res, c, -, -, -, -, hc, hrev, hcc⟩
  · obtain ⟨z, hz, hcz, hkz⟩ := hold y hy (hk.id ▸ hcy)
    exact ⟨z, hz, hcz, hkz.trans hky⟩
  · -- a rotation would need an un-revoked row of the chain
    obtain ⟨z, hz, hcz, hkz⟩ := hold c hc (hk.id ▸ hcc)
    have := hkz.revoked (hd z hz hcz)
    simp [SessionEntity.revoked, hrev] at this

/-! ## The race, and what holds without it -/

/-- **The race**: a rotation commits while the UPDATE of a replay in the same chain
still has the rotated row before it. -/
def Races (s : State ι) (a : ι × Event) : Prop :=
  a.2 = .commit ∧ ∃ res, s.phase a.1 = .updated res ∧ ∃ j c u, s.phase j = .revoking c u ∧
    res.revoked.id ∈ u.pending ∧ SameChain s.sessions c.id res.revoked.id

/-- A replay's running UPDATE has every un-revoked row of the chain before it, or has marked it. -/
def Covers (S : System ι) (s : State ι) : Prop :=
  ∀ j c u, s.phase j = .revoking c u → (∃ r, S.requests j = .refresh r) ∧
    ∀ x ∈ s.sessions, SameChain s.sessions c.id x.id → x.revokedAt = none →
      x.id ∈ u.pending ∨ x.id ∈ u.marked

/-- The refresh detected a reuse and its UPDATE is over. -/
def Phase.invalidated (p : Phase) : Prop :=
  p = .failed .refreshTokenReuseDetected ∨ ∃ c, p = .revokedAll c

/-- Every replay whose UPDATE is over has left its chain dead. -/
def Invalidated (S : System ι) (s : State ι) : Prop :=
  ∀ j r, S.requests j = .refresh r → (s.phase j).invalidated →
    ∃ e, Consumed s.sessions r e ∧ ChainDead s.sessions e.id

theorem Keeps.unrevoked {e e' : SessionEntity} (h : Keeps e e') (hr : e'.revokedAt = none) :
    e.revokedAt = none := by
  cases he : e.revokedAt with
  | none => rfl
  | some d =>
    have := h.revoked (by simp [SessionEntity.revoked, he])
    simp [SessionEntity.revoked, hr] at this

variable [Fintype ι]

/-- The replay's own steps keep its UPDATE covering the chain. -/
theorem move_covers (hI : Inv S s) (hL : LinkInv s.sessions) (hC : Covers S s) {i : ι}
    {ev : Event} {eff : Effect} {c : SessionAggregate} {u : RevokeAll}
    (hm : Move (S.env s) (S.newSession i) (S.requests i) ev (s.phase i) (.revoking c u) eff) :
    eff = .none ∧ (∃ r, S.requests i = .refresh r) ∧
      ∀ x ∈ s.sessions, SameChain s.sessions c.id x.id → x.revokedAt = none →
        x.id ∈ u.pending ∨ x.id ∈ u.marked := by
  generalize hq : s.phase i = q at hm
  generalize hreq : S.requests i = req at hm
  cases hm with
  | startRevokeAll r now _ _ =>
    refine ⟨rfl, ⟨r, rfl⟩, fun x hx hc hrev => Or.inl (mem_candidates.2 ⟨x, hx, rfl, ?_, hrev⟩)⟩
    obtain ⟨e, he, hid, hu⟩ := (hI.views i r hreq).reusing c (by rw [hq]; rfl)
    rw [← hid] at hc
    exact (sameChain_user hI hL he.1 hx hc).trans hu
  | visit r _ u₀ _ hv =>
    refine ⟨rfl, ⟨r, rfl⟩, fun x hx hc hrev => ?_⟩
    have hold := (hC i c u₀ hq).2 x hx hc hrev
    obtain ⟨id, rest, hpend, -, hrest, ⟨-, hmk⟩ | ⟨hall, hmk⟩⟩ := visit_spec hv
    · rw [hpend, List.mem_cons] at hold
      rw [hrest, hmk, List.mem_cons]
      tauto
    · rw [hpend, List.mem_cons] at hold
      rw [hrest, hmk]
      rcases hold with (rfl | hold) | hold
      · have := hall x hx rfl
        simp [SessionEntity.revoked, hrev] at this
      · exact Or.inl hold
      · exact Or.inr hold

variable [DecidableEq ι]

/-- **Without the race an UPDATE keeps covering its chain.** -/
theorem covers_step (hI : Inv S s) (hL : LinkInv s.sessions) (hC : Covers S s) {a : ι × Event}
    (hr : ¬ Races s a) (h : S.step s a = some t) : Covers S t := by
  obtain ⟨i, ev⟩ := a
  intro j c u hj
  obtain ⟨p, eff, hm, ht⟩ := System.step_move h
  by_cases hji : j = i
  · subst hji
    obtain rfl : p = .revoking c u := by simpa [ht] using hj
    obtain ⟨rfl, hcov⟩ := move_covers hI hL hC hm
    rw [ht]; exact hcov
  replace hj : s.phase j = .revoking c u := by simpa [ht, Function.update_of_ne hji] using hj
  obtain ⟨⟨r, hreq⟩, hcov⟩ := hC j c u hj
  refine ⟨⟨r, hreq⟩, fun x hx hc hrev => ?_⟩
  obtain ⟨e, he, hid, -⟩ := (hI.views j r hreq).reusing c (by rw [hj]; rfl)
  rw [← hid] at hc hcov
  rcases chain_back hI hL h he.1 hx hc with
    ⟨y, hy, hcy, hk⟩ | ⟨r', res, y, -, rfl, hpi, hres, hy, hrevy, hcy⟩
  · rw [hk.id]; exact hcov y hy hcy (hk.unrevoked hrev)
  · exfalso
    rcases hcov y hy hcy hrevy with hpend | hmark
    · exact hr ⟨rfl, res, hpi, j, c, u, hj, hres ▸ hpend, by rw [hres, ← hid]; exact hcy⟩
    · -- the UPDATE would hold the lock that the rotation holds
      refine hji (hI.exclusive j i y.id ?_ ?_)
      · simp [Phase.holds, Phase.update, hj, hmark]
      · simp [Phase.holds, Phase.rowLock, hpi, hres]

/-- A dead chain stays dead. -/
theorem chainDead_step (hI : Inv S s) (hL : LinkInv s.sessions) {a : ι × Event}
    (h : S.step s a = some t) {e : SessionEntity} (he : e ∈ s.sessions)
    (hd : ChainDead s.sessions e.id) : ChainDead t.sessions e.id := by
  intro x hx hc
  obtain ⟨y, hy, hcy, hk⟩ := chain_frozen hI hL (exec_cons.2 ⟨t, h, exec_nil.2 rfl⟩) he hd x hx hc
  exact hk.revoked (hd y hy hcy)

theorem Consumed.step (hI : Inv S s) {a : ι × Event} (h : S.step s a = some t) {r : RefreshRequest}
    {e : SessionEntity} (he : Consumed s.sessions r e) :
    ∃ e', Consumed t.sessions r e' ∧ e'.id = e.id := by
  obtain ⟨e', he', hk⟩ := step_keeps hI h he.1
  exact ⟨e', ⟨he', hk.hash.trans he.2.1, hk.revoked he.2.2⟩, hk.id⟩

/-- **The end of an UPDATE that covers its chain leaves the chain dead.** -/
theorem endRevokeAll_dead (hI : Inv S s) (hL : LinkInv s.sessions) (hC : Covers S s) {i : ι}
    (h : S.step s (i, .endRevokeAll) = some t) {c : SessionAggregate} {u : RevokeAll}
    (hp : s.phase i = .revoking c u) (hpend : u.pending = []) {r : RefreshRequest}
    (ht : t.sessions = s.sessions.map (markRevoked u.marked u.startedAt)) {e : SessionEntity}
    (he : Consumed s.sessions r e) (hid : e.id = c.id) : ChainDead t.sessions e.id := by
  intro x hx hc
  rcases chain_back hI hL h he.1 hx hc with
    ⟨y, hy, hcy, hk⟩ | ⟨r', res, y, -, hev, -⟩
  swap
  · cases hev
  cases hrev : y.revokedAt with
  | some d => exact hk.revoked (by simp [SessionEntity.revoked, hrev])
  | none =>
    rcases (hC i c u hp).2 y hy (hid ▸ hcy) hrev with hin | hin
    · rw [hpend] at hin; cases hin
    have hmem : markRevoked u.marked u.startedAt y ∈ t.sessions := by
      rw [ht]; exact List.mem_map_of_mem hy
    obtain rfl := (inv_step hI h).id_inj hx hmem (hk.id.trans (keeps_markRevoked _ _ y).id.symm)
    simp [SessionEntity.revoked, markRevoked, hin]

theorem invalidated_step (hI : Inv S s) (hL : LinkInv s.sessions) (hC : Covers S s)
    (hD : Invalidated S s) {a : ι × Event} (h : S.step s a = some t) : Invalidated S t := by
  obtain ⟨i, ev⟩ := a
  intro j r hreq hj
  have hold : (s.phase j).invalidated → ∃ e, Consumed t.sessions r e ∧ ChainDead t.sessions e.id := by
    intro hs
    obtain ⟨e, he, hd⟩ := hD j r hreq hs
    obtain ⟨e', he', hid⟩ := he.step hI h
    exact ⟨e', he', hid ▸ chainDead_step hI hL h he.1 hd⟩
  obtain ⟨p, eff, hm, ht⟩ := System.step_move h
  by_cases hji : j = i
  swap
  · exact hold (by simpa [ht, Function.update_of_ne hji] using hj)
  subst hji
  replace hj : p.invalidated := by simpa [ht] using hj
  generalize hq : s.phase j = q at hm hold
  rw [hreq] at hm
  cases hm with
  | endRevokeAll _ c u hpend =>
    obtain ⟨e, he, hid, -⟩ := (hI.views j r hreq).reusing c (by rw [hq]; rfl)
    obtain ⟨e', he', hid'⟩ := he.step hI h
    exact ⟨e', he', hid' ▸ endRevokeAll_dead hI hL hC h hq hpend (by rw [ht]; rfl) he hid⟩
  | rollback _ c => exact hold (Or.inr ⟨c, rfl⟩)
  | _ => rcases hj with hj | ⟨c, hj⟩ <;> cases hj

/-- What holds in every state of a run without the race. -/
structure ChainInv (S : System ι) (s : State ι) : Prop where
  inv : Inv S s
  links : LinkInv s.sessions
  covers : Covers S s
  dead : Invalidated S s

omit [DecidableEq ι] [Fintype ι] in
theorem chainInv_start (S : System ι) : ChainInv S (S.start []) where
  inv := inv_start S
  links := by simp [LinkInv, System.start]
  covers := by simp [Covers, System.start]
  dead := by simp [Invalidated, System.start, Phase.invalidated]

theorem chainInv_step (hS : ChainInv S s) {a : ι × Event} (hr : ¬ Races s a)
    (h : S.step s a = some t) : ChainInv S t where
  inv := inv_step hS.inv h
  links := linkInv_step hS.inv hS.links h
  covers := covers_step hS.inv hS.links hS.covers hr h
  dead := invalidated_step hS.inv hS.links hS.covers hS.dead h

/-- **Replaying a consumed token invalidates its chain for good**, on every run without the race:
once the refresh has ended in `RefreshTokenReuseDetectedException`, every session of the chain
of its token is revoked in every later state, whatever happens then, and no refresh that had
not rotated by then exchanges a token of the chain. -/
theorem chain_invalidated (S : System ι) {as bs : List (ι × Event)} {s t : State ι}
    (hs : exec S.step (S.start []) as = some s)
    (hrace : Along S.step (fun u a => ¬ Races u a) (S.start []) as)
    (ht : exec S.step s bs = some t) {i : ι} {r : RefreshRequest}
    (hr : S.requests i = .refresh r) (hi : s.phase i = .failed .refreshTokenReuseDetected) :
    ∃ e ∈ s.sessions, e.refreshTokenHash = r.presentedHash ∧
      ∀ x ∈ t.sessions, SameChain t.sessions e.id x.id → x.revoked ∧
        ∀ j r', S.requests j = .refresh r' → r'.presentedHash = x.refreshTokenHash →
          (s.phase j).rotated = false → (t.phase j).rotated = false := by
  have hS : ChainInv S s :=
    invariant_along (fun _ _ _ hS hr h => chainInv_step hS hr h) (chainInv_start S) hrace hs
  obtain ⟨e, he, hd⟩ := hS.dead i r hr (Or.inl hi)
  refine ⟨e, he.1, he.2.1, fun x hx hc => ?_⟩
  obtain ⟨y, hy, hcy, hk⟩ := chain_frozen hS.inv hS.links ht he.1 hd x hx hc
  have hrev := hd y hy hcy
  refine ⟨hk.revoked hrev, fun j r' hr' hh hn => ?_⟩
  exact not_rotated_exec hS.inv ht hr' ⟨hy, (hh.trans hk.hash).symm, hrev⟩ hn

theorem chain_invalidated_replay :
    ∃ s t, exec replaySystem.step (replaySystem.start []) (rotateOnce ++ replay ++ revokeChain) = some s ∧
      exec replaySystem.step s [(2, .begin), (2, .select), (2, .callback (.millis 4))] = some t ∧
      ∃ e ∈ s.sessions, e.refreshTokenHash = 0 ∧ ∀ x ∈ t.sessions, SameChain t.sessions e.id x.id →
        x.revoked := by
  obtain ⟨s, hs, hi⟩ : ∃ s, exec replaySystem.step (replaySystem.start [])
      (rotateOnce ++ replay ++ revokeChain) = some s ∧
      s.phase 3 = .failed .refreshTokenReuseDetected := ⟨_, rfl, by decide⟩
  obtain ⟨t, ht⟩ : ∃ t, exec replaySystem.step (replaySystem.start [])
      (rotateOnce ++ replay ++ revokeChain ++
        [(2, .begin), (2, .select), (2, .callback (.millis 4))]) = some t := ⟨_, rfl⟩
  obtain ⟨u, hu, hut⟩ := exec_append.1 ht
  obtain rfl := Option.some.inj (hs.symm.trans hu)
  -- the one commit of the run happens before any UPDATE starts
  have hrace : Along replaySystem.step (fun s a => ¬ Races s a) (replaySystem.start [])
      (rotateOnce ++ replay ++ revokeChain) := by
    refine along_of_check
      (fun s a => a.2 ≠ .commit || decide (∀ j, (s.phase j).update = none)) ?_ (by decide)
    rintro s a hok ⟨hcommit, -, -, j, c, u, hj, -⟩
    simp only [hcommit, ne_eq, not_true_eq_false, decide_false, Bool.false_or, decide_eq_true_eq] at hok
    have hidle := hok j
    simp [hj, Phase.update] at hidle
  obtain ⟨e, he, hh, hall⟩ := chain_invalidated replaySystem hs hrace hut (i := 3) rfl hi
  exact ⟨s, t, hs, hut, e, he, hh, fun x hx hc => (hall x hx hc).1⟩

/-- **A chain that survives its replay**: request 2 commits between the snapshot of request 3's
UPDATE and its visit of the rotated row. The successor, session 2, stays un-revoked. -/
theorem chain_survives_replay :
    ∃ t, exec replaySystem.step (replaySystem.start [])
        (rotateOnce ++ rotateNext ++ replay ++ (2, .commit) :: revokeChain) = some t ∧
      t.phase 3 = .failed .refreshTokenReuseDetected ∧
      ∃ e ∈ t.sessions, e.refreshTokenHash = 0 ∧ e.replacedBySessionId = some 1 ∧
        ∃ x ∈ t.sessions, SameChain t.sessions e.id x.id ∧ x.revokedAt = none := by
  refine ⟨_, rfl, by decide, _, List.mem_cons_self, by decide, by decide, _,
    List.mem_cons_of_mem _ (List.mem_cons_of_mem _ List.mem_cons_self), ?_, by decide⟩
  refine .trans _ 1 _ (.rel _ _ ?_) (.rel _ _ ?_)
  · exact ⟨_, List.mem_cons_self, by decide, by decide⟩
  · exact ⟨_, List.mem_cons_of_mem _ List.mem_cons_self, by decide, by decide⟩

end AccountApi
