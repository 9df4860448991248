import AccountApi.Proof.ChainInvalidation
import AccountApi.Proof.VerifiedIdentity
import AccountApi.Spec.Logins

/-!
# The session table is a set of simple chains

`ChainShape` is the invariant: a session has at most one predecessor, the links close
no cycle, and every session is reached from one that a login stored. What makes it
inductive is that a link is only ever set to a session committed together with it
(`linked_step`), whose id was unused until then (`not_linked`).

* `simpleChains`: what the invariant says of the table alone.
* `stores_verified`: a login that stores a session has verified its credentials.
* `session_chains`: **the two together, over all runs.**
-/

namespace AccountApi

open Transition Relation

variable {ι : Type} {S : System ι} {s t : State ι}

/-- The session was stored by a login of its user. -/
def LoginSession (S : System ι) (s : State ι) (e : SessionEntity) : Prop :=
  ∃ i l, S.requests i = .login l ∧ s.phase i = .loggedIn ∧ e.id = S.newId i ∧ e.userId = l.userId

/-- The chains of a table. -/
structure ChainShape (S : System ι) (s : State ι) : Prop where
  inv : Inv S s
  links : LinkInv s.sessions
  /-- Only refreshes store successors. -/
  successors : ∀ a n, Linked s.sessions a n → ∃ i r, S.requests i = .refresh r ∧ n = S.newId i
  pred : ∀ a b n, Linked s.sessions a n → Linked s.sessions b n → a = b
  acyclic : ∀ a, ¬ TransGen (Linked s.sessions) a a
  rooted : ∀ x ∈ s.sessions, ∃ e ∈ s.sessions, LoginSession S s e ∧
    ReflTransGen (Linked s.sessions) e.id x.id

theorem chainShape_start (S : System ι) : ChainShape S (S.start []) where
  inv := inv_start S
  links := by simp [LinkInv, System.start]
  successors := by simp [Linked, System.start]
  pred := by simp [Linked, System.start]
  acyclic a h := by
    obtain ⟨b, ⟨e, he, -⟩, -⟩ := TransGen.head'_iff.1 h
    cases he
  rooted := by simp [System.start]

/-- Two links from one session lead to the same successor. -/
theorem Inv.link_unique (hI : Inv S s) {a b c : Uuid} (hb : Linked s.sessions a b)
    (hc : Linked s.sessions a c) : b = c := by
  obtain ⟨e, he, hid, hl⟩ := hb
  obtain ⟨e', he', hid', hl'⟩ := hc
  obtain rfl := hI.id_inj he he' (hid.trans hid'.symm)
  exact Option.some.inj (hl.symm.trans hl')

/-- A login that has stored its session takes no further step. -/
theorem move_loggedIn {env : Env} {new : NewSession} {l : LoginRequest} {ev : Event} {p : Phase}
    {eff : Effect} : ¬ Move env new (.login l) ev .loggedIn p eff := by
  intro h
  cases h

variable [Fintype ι] [DecidableEq ι]

/-- A link once set never changes. -/
theorem linked_mono (hI : Inv S s) (hL : LinkInv s.sessions) {a : ι × Event} (h : S.step s a = some t)
    {x y : Uuid} (hl : Linked s.sessions x y) : Linked t.sessions x y := by
  obtain ⟨e, he, rfl, hlink⟩ := hl
  obtain ⟨e', he', hk⟩ := step_keeps hI h he
  exact ⟨e', he', hk.id, (hk.link (hL e he y hlink).1).trans hlink⟩

theorem loginSession_mono {a : ι × Event} (h : S.step s a = some t) {e e' : SessionEntity}
    (hk : Keeps e e') (hlogin : LoginSession S s e) : LoginSession S t e' := by
  obtain ⟨i, l, hreq, hphase, hid, huser⟩ := hlogin
  obtain ⟨j, ev⟩ := a
  obtain ⟨p, eff, hm, rfl⟩ := System.step_move h
  refine ⟨i, l, hreq, ?_, hk.id.trans hid, hk.userId.trans huser⟩
  by_cases hij : i = j
  · subst hij
    rw [hreq, hphase] at hm
    exact absurd hm move_loggedIn
  · simpa [Function.update_of_ne hij] using hphase

/-- A row after a step is a later version of an old row, the session of a login, or the successor
of a session that was un-revoked until then. -/
theorem row_after (hI : Inv S s) {i : ι} {ev : Event} (h : S.step s (i, ev) = some t) {x : SessionEntity}
    (hx : x ∈ t.sessions) :
    (∃ y ∈ s.sessions, Keeps y x) ∨ LoginSession S t x ∨
      ∃ c ∈ s.sessions, Linked t.sessions c.id x.id := by
  have hstep := h
  obtain ⟨p, eff, hm, rfl⟩ := System.step_move h
  have hok := move_effect hI hm
  simp only [hok.apply] at hx
  rcases List.mem_append.1 hx with hx | hx
  · obtain ⟨y, hy, rfl⟩ := List.mem_map.1 hx
    exact Or.inl ⟨y, hy, hok.keeps y hy⟩
  generalize hreq : S.requests i = req at hm
  generalize hphase : s.phase i = q at hm
  cases hm with
  | login l now _ =>
    refine Or.inr (Or.inl ⟨i, l, hreq, Function.update_self .., ?_⟩)
    rw [Effect.inserted, List.mem_singleton] at hx
    subst hx
    exact ⟨rfl, rfl⟩
  | commit r res =>
    obtain ⟨c, now, hc, -, rfl⟩ := commit_spec hI hreq hphase
    rw [Effect.inserted, List.mem_singleton] at hx
    subst hx
    refine Or.inr (Or.inr ⟨c.toEntity, hc, (c.revoke (S.newId i) now).toEntity, ?_, rfl, rfl⟩)
    simp only [hok.apply]
    refine List.mem_append_left _ (List.mem_map.2 ⟨c.toEntity, hc, ?_⟩)
    exact if_pos rfl
  | _ => cases hx

/-- **The links grow by one at most**, from a session of the table to an id that no session had. -/
theorem links_grow (hI : Inv S s) {i : ι} {ev : Event} (h : S.step s (i, ev) = some t) :
    (∀ x y, Linked t.sessions x y → Linked s.sessions x y) ∨
      ∃ c ∈ s.sessions, (∃ r, S.requests i = .refresh r) ∧ (∀ e ∈ s.sessions, e.id ≠ S.newId i) ∧
        ∀ x y, Linked t.sessions x y → Linked s.sessions x y ∨ (x = c.id ∧ y = S.newId i) := by
  by_cases hcommit : ∃ r res, S.requests i = .refresh r ∧ s.phase i = .updated res
  · obtain ⟨r, res, hr, hp⟩ := hcommit
    obtain ⟨c, now, hc, -, rfl⟩ := commit_spec hI hr hp
    have hun := hI.unused i (by rw [hp]; rfl)
    refine Or.inr ⟨c.toEntity, hc, ⟨r, hr⟩, fun e he => (hun e he).1, fun x y hxy => ?_⟩
    rcases linked_step hI h hxy with hold | ⟨r', res', -, -, hp', rfl, hy⟩
    · exact Or.inl hold
    · rw [hp] at hp'; cases hp'; exact Or.inr ⟨rfl, hy⟩
  · refine Or.inl fun x y hxy => ?_
    rcases linked_step hI h hxy with hold | ⟨r, res, hr, -, hp, -⟩
    · exact hold
    · exact absurd ⟨r, res, hr, hp⟩ hcommit

/-- **Every step preserves the chains.** -/
theorem chainShape_step (hC : ChainShape S s) {a : ι × Event} (h : S.step s a = some t) :
    ChainShape S t := by
  obtain ⟨i, ev⟩ := a
  have hrooted : ∀ x ∈ t.sessions, ∃ e ∈ t.sessions, LoginSession S t e ∧
      ReflTransGen (Linked t.sessions) e.id x.id := by
    have hold : ∀ y ∈ s.sessions, ∃ e ∈ t.sessions, LoginSession S t e ∧
        ReflTransGen (Linked t.sessions) e.id y.id := by
      intro y hy
      obtain ⟨e, he, hlogin, hpath⟩ := hC.rooted y hy
      obtain ⟨e', he', hk⟩ := step_keeps hC.inv h he
      refine ⟨e', he', loginSession_mono h hk hlogin, ?_⟩
      rw [hk.id]
      exact ReflTransGen.mono (fun _ _ => linked_mono hC.inv hC.links h) _ _ hpath
    intro x hx
    rcases row_after hC.inv h hx with ⟨y, hy, hk⟩ | hlogin | ⟨c, hc, hlink⟩
    · rw [hk.id]; exact hold y hy
    · exact ⟨x, hx, hlogin, .refl⟩
    · obtain ⟨e, he, hlogin, hpath⟩ := hold c hc
      exact ⟨e, he, hlogin, hpath.tail hlink⟩
  have hinv := inv_step hC.inv h
  have hlinks := linkInv_step hC.inv hC.links h
  rcases links_grow hC.inv h with hsame | ⟨c, hc, ⟨r, hr⟩, hnew, hgrow⟩
  · exact ⟨hinv, hlinks, fun a n hl => hC.successors a n (hsame _ _ hl),
      fun a b n ha hb => hC.pred a b n (hsame _ _ ha) (hsame _ _ hb),
      fun a ha => hC.acyclic a (TransGen.mono hsame _ _ ha), hrooted⟩
  obtain ⟨hl, hl'⟩ := not_linked hC.links hnew
  refine ⟨hinv, hlinks, fun a n hlink => ?_, fun a b n ha hb => ?_,
    Chain.acyclic_grow hC.acyclic hgrow hl (hnew c hc), hrooted⟩
  · rcases hgrow a n hlink with hold | ⟨-, hn⟩
    · exact hC.successors a n hold
    · exact ⟨i, r, hr, hn⟩
  · -- no old link leads where the new one does
    rcases hgrow a n ha with hold | ⟨rfl, rfl⟩ <;> rcases hgrow b _ hb with hold' | ⟨rfl, hn⟩
    · exact hC.pred a b n hold hold'
    · exact absurd (hn ▸ hold) (hl' a)
    · exact absurd hold' (hl' b)
    · rfl

/-- The sessions form simple chains, each of one user, and only the last of a chain may be un-revoked. -/
structure SimpleChains (sessions : List SessionEntity) : Prop where
  acyclic : ∀ a, ¬ TransGen (Linked sessions) a a
  pred : ∀ a b n, Linked sessions a n → Linked sessions b n → a = b
  succ : ∀ a n, Linked sessions a n → (∃ e ∈ sessions, e.id = n) ∧ ∀ m, Linked sessions a m → m = n
  sameUser : ∀ x ∈ sessions, ∀ y ∈ sessions, SameChain sessions x.id y.id → x.userId = y.userId
  revoked : ∀ e ∈ sessions, ∀ n, e.replacedBySessionId = some n → e.revoked
  last : ∀ x ∈ sessions, ∀ y ∈ sessions, SameChain sessions x.id y.id → ¬ x.revoked → ¬ y.revoked → x = y

omit [Fintype ι] [DecidableEq ι] in
theorem simpleChains (hC : ChainShape S s) : SimpleChains s.sessions := by
  refine ⟨hC.acyclic, hC.pred, fun a n h => ⟨?_, fun m hm => hC.inv.link_unique hm h⟩,
    fun x hx y hy hxy => (sameChain_user hC.inv hC.links hx hy hxy).symm,
    fun e he n hn => (hC.links e he n hn).1, fun x hx y hy hxy hxrev hyrev => ?_⟩
  case refine_1 =>
    obtain ⟨e, he, -, hn⟩ := h
    obtain ⟨-, e', he', hid, -⟩ := hC.links e he n hn
    exact ⟨e', he', hid⟩
  case refine_2 =>
    -- of two sessions of a chain, one is reached from the other, and an un-revoked one leads nowhere
    have hend : ∀ u ∈ s.sessions, ¬ u.revoked → ∀ b, ReflTransGen (Linked s.sessions) u.id b → u.id = b := by
      intro u hu hrev b hpath
      rcases ReflTransGen.cases_head hpath with heq | ⟨c, ⟨e, he, hid, hn⟩, -⟩
      · exact heq
      · obtain rfl := hC.inv.id_inj he hu hid
        exact absurd (hC.links e he c hn).1 hrev
    have hright : Relator.RightUnique (Linked s.sessions) := fun a b c => hC.inv.link_unique
    have hleft : Relator.LeftUnique (Linked s.sessions) := fun a b c hac hbc => hC.pred a b c hac hbc
    rcases Chain.reflTransGen_of_eqvGen hright hleft hxy with hpath | hpath
    · exact hC.inv.id_inj hx hy (hend x hx hxrev _ hpath)
    · exact hC.inv.id_inj hx hy (hend y hy hyrev _ hpath).symm

omit [Fintype ι] [DecidableEq ι] in
/-- A session that a login stored has no predecessor. -/
theorem loginSession_first (hC : ChainShape S s) {e : SessionEntity} (he : LoginSession S s e) (a : Uuid) :
    ¬ Linked s.sessions a e.id := by
  intro hlink
  obtain ⟨i, l, hreq, -, hid, -⟩ := he
  obtain ⟨j, r, hreq', hid'⟩ := hC.successors a e.id hlink
  obtain rfl := S.newId.injective (hid.symm.trans hid')
  rw [hreq] at hreq'
  cases hreq'

/-! ## The statements of `rotate()` -/

/-- What the statements of the rotations in progress refer to: the INSERT of a successor to no other row,
the UPDATE of its predecessor to the row inserted just before, so that the foreign key holds. -/
structure RotationStatements (S : System ι) (s : State ι) : Prop where
  insert : ∀ i r res, S.requests i = .refresh r → s.phase i = .rotating res →
    res.created.replacedBySessionId = none
  update : ∀ i r res, S.requests i = .refresh r → s.phase i = .inserted res →
    res.revoked.replacedBySessionId = some res.created.id ∧
      ∀ t, S.step s (i, .updatePredecessor) = some t → t.phase i = .updated res

theorem rotationStatements (hI : Inv S s) : RotationStatements S s := by
  refine ⟨fun i r res hr hp => ?_, fun i r res hr hp => ?_⟩
  · obtain ⟨c, now, -, -, hcb⟩ := (hI.views i r hr).rotating res (by rw [hp]; rfl)
    obtain ⟨-, -, rfl⟩ := rotateCallback_rotate hcb
    rfl
  · obtain ⟨c, now, -, -, hcb⟩ := (hI.views i r hr).rotating res (by rw [hp]; rfl)
    obtain ⟨-, -, rfl⟩ := rotateCallback_rotate hcb
    have hlink : (c.revoke (S.newSession i).id now).replacedBySessionId =
        some ((S.newSession i).build c.userId now).id := rfl
    refine ⟨hlink, fun t ht => ?_⟩
    simp only [System.step, hr, hp, advance] at ht
    rw [if_pos (by simp [hlink])] at ht
    cases ht
    exact Function.update_self ..

variable {ρ κ : Type} {P : Logins ι ρ κ} {u v : LoginsState ι ρ κ} {e : LoginsEvent ι ρ κ}
  {es : List (LoginsEvent ι ρ κ)} {A : List KeycloakAccount} {U : List UserEntity}

/-- A step of the sessions, or one of the registrations, logins and refreshes. -/
inductive LoginsMove (P : Logins ι ρ κ) (u v : LoginsState ι ρ κ) : LoginsEvent ι ρ κ → Prop
  | session (i event) : P.savesAfterSigning u i = true →
      P.sessions.step u.sessions (i, event) = some v.sessions → v.identity = u.identity →
      LoginsMove P u v (.session i event)
  | identity (event) : IdentityMove P.identity u.identity v.identity event → v.sessions = u.sessions →
      LoginsMove P u v (.identity event)

/-- What holds in every state. -/
structure LoginsInv (P : Logins ι ρ κ) (u : LoginsState ι ρ κ) : Prop where
  chains : ChainShape P.sessions u.sessions
  verified : ∀ j, TokenVerified P.identity j u.identity.registration.accounts (u.identity.tokens j)

theorem loginsInv_step (hI : LoginsInv P u) (h : LoginsMove P u v e) : LoginsInv P v := by
  cases h with
  | session i event _ hstep hsame => exact ⟨chainShape_step hI.chains hstep, hsame ▸ hI.verified⟩
  | identity event hmove hsame => exact ⟨hsame ▸ hI.chains, tokenVerified_step hmove hI.verified⟩

variable [DecidableEq ρ] [DecidableEq κ]

theorem logins_step (h : P.step u e = some v) : LoginsMove P u v e := by
  cases e with
  | session i event =>
    simp only [Logins.step] at h
    split at h
    case isFalse => cases h
    case isTrue hsigned =>
      obtain ⟨sessions, hstep, rfl⟩ := Option.map_eq_some_iff.1 h
      exact .session i event hsigned hstep rfl
  | identity event =>
    simp only [Logins.step] at h
    split at h
    case isFalse => cases h
    case isTrue =>
      obtain ⟨identity, hstep, rfl⟩ := Option.map_eq_some_iff.1 h
      exact .identity event (identity_step hstep) rfl

theorem loginsInv_exec (hI : LoginsInv P u) (h : exec P.step u es = some v) : LoginsInv P v :=
  invariant (fun _ _ _ hI h => loginsInv_step hI (logins_step h)) hI h

theorem loginsInv_run (h : exec P.step (P.start A U) es = some u) : LoginsInv P u :=
  loginsInv_exec ⟨chainShape_start _, fun _ => tokenVerified_start _⟩ h

/-- A login stored the session at some step of the run `es` from `start`: it had a token signed for the
user, and Keycloak had taken its credentials for an account. -/
def StoredByLogin (P : Logins ι ρ κ) (start : LoginsState ι ρ κ) (es : List (LoginsEvent ι ρ κ))
    (e : SessionEntity) : Prop :=
  ∃ i l now bs cs v x c, P.sessions.requests i = .login l ∧ e.id = P.sessions.newId i ∧
    es = bs ++ .session i (.saveSession now) :: cs ∧ exec P.step start bs = some v ∧
    v.identity.tokens (P.loginOf i) = .signed x c ∧ c.sub = e.userId ∧
    ∃ a ∈ v.identity.registration.accounts, a.subject = x ∧ P.identity.Verifies (P.loginOf i) a

/-- **A login that has stored its session has verified its credentials.** -/
theorem stores_verified (h : exec P.step (P.start A U) es = some u) {e : SessionEntity}
    (he : LoginSession P.sessions u.sessions e) : StoredByLogin P (P.start A U) es e := by
  obtain ⟨i, l, hreq, hphase, hid, huser⟩ := he
  obtain ⟨bs, ev, cs, v, w, rfl, hbs, hstep, hv, hw⟩ := exec_becomes
    (P := fun v : LoginsState ι ρ κ => v.sessions.phase i = .loggedIn) h (fun h => by cases h) hphase
  cases logins_step hstep with
  | identity event _ hsame => exact absurd (hsame ▸ hw) hv
  | session k event hsigned hstep' _ =>
    obtain ⟨p, eff, hmove, hsessions⟩ := System.step_move hstep'
    simp only [hsessions] at hw
    by_cases hik : i = k
    case neg =>
      rw [Function.update_of_ne hik] at hw
      exact absurd hw hv
    subst hik
    rw [Function.update_self] at hw
    subst hw
    rw [hreq] at hmove
    simp only [Logins.savesAfterSigning, hreq] at hsigned
    generalize hq : v.sessions.phase i = q at hmove
    cases hmove with
    | login _ now _ =>
      have hverified := (loginsInv_run hbs).verified (P.loginOf i)
      generalize htoken : v.identity.tokens (P.loginOf i) = p at hsigned hverified
      cases p with
      | signed x c =>
        have hsub : c.sub = l.userId := by simpa [TokenPhase.signedFor] using hsigned
        exact ⟨i, l, now, bs, cs, v, x, c, hreq, hid, rfl, hbs, htoken, hsub.trans huser.symm,
          hverified.account x rfl⟩
      | _ => cases hsigned

/-- Links stay, and lead to the same successor. -/
theorem linked_run (hI : LoginsInv P u) (h : exec P.step u es = some v) {a b : Uuid}
    (hl : Linked u.sessions.sessions a b) : Linked v.sessions.sessions a b := by
  have hrun : LoginsInv P v ∧ Linked v.sessions.sessions a b := by
    refine invariant (I := fun w => LoginsInv P w ∧ Linked w.sessions.sessions a b) ?_ ⟨hI, hl⟩ h
    rintro w ev w' ⟨hIw, hlw⟩ hstep
    have hmove := logins_step hstep
    refine ⟨loginsInv_step hIw hmove, ?_⟩
    cases hmove with
    | session i event _ hstep' _ => exact linked_mono hIw.chains.inv hIw.chains.links hstep' hlw
    | identity event _ hsame => exact hsame ▸ hlw
  exact hrun.2

/-- **The session table is always a set of simple chains.** Each starts at a session that a login of its
user stored after its credentials were verified, a link never changes, and the statements of the
rotations refer to rows that exist. -/
theorem session_chains (P : Logins ι ρ κ) (A : List KeycloakAccount) (U : List UserEntity)
    (es : List (LoginsEvent ι ρ κ)) (u : LoginsState ι ρ κ)
    (h : exec P.step (P.start A U) es = some u) :
    SimpleChains u.sessions.sessions ∧
      (∀ x ∈ u.sessions.sessions, ∃ e ∈ u.sessions.sessions,
        (∀ a, ¬ Linked u.sessions.sessions a e.id) ∧
        ReflTransGen (Linked u.sessions.sessions) e.id x.id ∧ e.userId = x.userId ∧
        StoredByLogin P (P.start A U) es e) ∧
      (∀ es' v, exec P.step u es' = some v → ∀ a b, Linked u.sessions.sessions a b →
        Linked v.sessions.sessions a b ∧ ∀ c, Linked v.sessions.sessions a c → c = b) ∧
      RotationStatements P.sessions u.sessions := by
  have hI := loginsInv_run h
  have hchains := simpleChains hI.chains
  refine ⟨hchains, fun x hx => ?_, fun es' v h' a b hl => ?_, rotationStatements hI.chains.inv⟩
  · obtain ⟨e, he, hlogin, hpath⟩ := hI.chains.rooted x hx
    have hsame : SameChain u.sessions.sessions e.id x.id := Chain.eqvGen_of_reflTransGen hpath
    exact ⟨e, he, loginSession_first hI.chains hlogin, hpath, hchains.sameUser e he x hx hsame,
      stores_verified h hlogin⟩
  · have hlv := linked_run hI h' hl
    exact ⟨hlv, fun c hc => (loginsInv_exec hI h').chains.inv.link_unique hc hlv⟩

/-- Jane logs in, and her refresh token is rotated once. -/
def janeLogins : Logins (Fin 4) (Fin 2) Bool where
  sessions := { replaySystem with
    requests := fun i => if i.val = 0 then .login ⟨0, .millis 100⟩ else replaySystem.requests i }
  identity := janeIdentity (some "")
  loginOf _ := true

def janeRotates : List (LoginsEvent (Fin 4) (Fin 2) Bool) :=
  janeRegisters.map .identity ++ (janeLogsIn.take 6).map .identity ++
    rotateOnce.map fun a => .session a.1 a.2

theorem session_chains_jane : ∃ u, exec janeLogins.step (janeLogins.start [] []) janeRotates = some u ∧
    u.sessions.sessions.map (fun e => (e.id, e.userId, e.revokedAt.isSome, e.replacedBySessionId)) =
      [(0, 0, true, some 1), (1, 0, false, none)] ∧
    SimpleChains u.sessions.sessions ∧ ∃ e ∈ u.sessions.sessions, ReflTransGen (Linked u.sessions.sessions) e.id 1 ∧
      StoredByLogin janeLogins (janeLogins.start [] []) janeRotates e := by
  have hrun : (exec janeLogins.step (janeLogins.start [] []) janeRotates).map (fun u =>
      u.sessions.sessions.map fun e => (e.id, e.userId, e.revokedAt.isSome, e.replacedBySessionId)) =
        some [(0, 0, true, some 1), (1, 0, false, none)] := by decide +kernel
  obtain ⟨u, hu, hrows⟩ := Option.map_eq_some_iff.1 hrun
  obtain ⟨hchains, hrooted, -⟩ := session_chains janeLogins [] [] janeRotates u hu
  have hlast : (1, 0, false, none) ∈ u.sessions.sessions.map fun e =>
      (e.id, e.userId, e.revokedAt.isSome, e.replacedBySessionId) := by
    rw [hrows]
    exact List.mem_cons_of_mem _ List.mem_cons_self
  obtain ⟨x, hx, hxid⟩ := List.mem_map.1 hlast
  obtain ⟨e, he, -, hpath, -, hstored⟩ := hrooted x hx
  rw [(Prod.mk.inj hxid).1] at hpath
  exact ⟨u, hu, hrows, hchains, e, he, hpath, hstored⟩

end AccountApi
