import AccountApi.Proof.SingleUse
import Mathlib.Algebra.Order.BigOperators.Group.Finset

/-!
# Refreshes that starve each other of connections

Refreshes with tokens of pairwise different users never wait for each other's locks
(`not_held`), only for connections (`can_step`). A refresh that detected a reuse holds
one connection and needs a second one for its UPDATE; every other request that holds a
connection can go on without another.

* `not_stuck`: with fewer replays than connections no reachable state is stuck.
* `stuck_run`: with as many, the run that brings that many replays to their UPDATE is.
-/

namespace AccountApi

open Transition

variable {ι : Type} {S : System ι} {s t : State ι} {n : ℕ}

/-- Refreshes that present tokens of pairwise different users, on a table that has not seen
what they generate. -/
structure Independent (S : System ι) (sessions : List SessionEntity) : Prop where
  refreshes : ∀ i, ∃ r, S.requests i = .refresh r
  ids : (sessions.map (·.id)).Nodup
  hashes : (sessions.map (·.refreshTokenHash)).Nodup
  unused : ∀ i, ∀ e ∈ sessions, e.id ≠ S.newId i ∧ e.refreshTokenHash ≠ S.newHash i
  unguessed : ∀ i j r, S.requests i = .refresh r → r.presentedHash ≠ S.newHash j
  users : ∀ i j r r', S.requests i = .refresh r → S.requests j = .refresh r' → i ≠ j →
    ∀ e ∈ sessions, ∀ e' ∈ sessions, e.refreshTokenHash = r.presentedHash →
      e'.refreshTokenHash = r'.presentedHash → e.userId ≠ e'.userId

/-- The request presents the token of a revoked session. -/
def System.replays (S : System ι) (sessions : List SessionEntity) (i : ι) : Bool :=
  match S.requests i with
  | .refresh r => sessions.any fun e => e.refreshTokenHash = r.presentedHash && e.revokedAt.isSome
  | _ => false

theorem replays_iff {sessions : List SessionEntity} {i : ι} {r : RefreshRequest}
    (hr : S.requests i = .refresh r) :
    S.replays sessions i = true ↔ ∃ e, Consumed sessions r e := by
  simp [System.replays, hr, Consumed, SessionEntity.revoked]

/-- The refresh has not passed the decision of its callback, or awaits its UPDATE. -/
def Phase.undecided : Phase → Bool
  | requested | begun | locked _ | reuse _ => true
  | _ => false

/-- What holds in every state reached by independent refreshes. -/
structure PoolInv (S : System ι) (sessions : List SessionEntity) (n : ℕ) [Fintype ι] (s : State ι) :
    Prop where
  inv : Inv S s
  users : ∀ i j r r', S.requests i = .refresh r → S.requests j = .refresh r' → i ≠ j →
    ∀ e ∈ s.sessions, ∀ e' ∈ s.sessions, e.refreshTokenHash = r.presentedHash →
      e'.refreshTokenHash = r'.presentedHash → e.userId ≠ e'.userId
  updates : ∀ i u, (s.phase i).update = some u → ∃ c, s.phase i = .revoking c u ∧
    (u.pending ++ u.marked).Nodup ∧ ∀ id ∈ u.pending ++ u.marked, id ≠ c.id ∧
      ∃ e ∈ s.sessions, e.id = id ∧ e.userId = c.userId
  replays : ∀ i, (s.phase i).undecided = true → S.replays s.sessions i = true →
    S.replays sessions i = true
  used : System.used s ≤ n

/-- A row lock is on the row of the presented token. -/
theorem View.row {sessions : List SessionEntity} {new : NewSession} {r : RefreshRequest} {p : Phase}
    (hv : View sessions new r p) {id : Uuid} (h : p.rowLock = some id) :
    ∃ e ∈ sessions, e.id = id ∧ e.refreshTokenHash = r.presentedHash := by
  have hre : ∀ c, p.reusing = some c → ∃ e ∈ sessions, e.id = c.id ∧
      e.refreshTokenHash = r.presentedHash := by
    intro c hc
    obtain ⟨e, he, hid, -⟩ := hv.reusing c hc
    exact ⟨e, he.1, hid, he.2.1⟩
  have hro : ∀ res, p.result = some res → ∃ e ∈ sessions, e.id = res.revoked.id ∧
      e.refreshTokenHash = r.presentedHash := by
    intro res hres
    obtain ⟨c, now, hc, hh, hcb⟩ := hv.rotating res hres
    obtain ⟨-, -, rfl⟩ := rotateCallback_rotate hcb
    exact ⟨_, hc, rfl, hh⟩
  cases p with
  | locked c =>
    cases h
    obtain ⟨hm, hh⟩ := hv.locked c rfl
    exact ⟨_, hm, rfl, hh⟩
  | reuse c | revoking c u | revokedAll c => cases h; exact hre c rfl
  | rotating res | inserted res | updated res => cases h; exact hro res rfl
  | _ => cases h

variable [Fintype ι]

/-- **Nobody else ever locks a row of the user whose token a request presents.** -/
theorem not_held {sessions : List SessionEntity} (hS : Independent S sessions)
    (hP : PoolInv S sessions n s) {i j : ι} (hij : i ≠ j) {r : RefreshRequest}
    (hr : S.requests i = .refresh r) {k : SessionEntity} (hk : k ∈ s.sessions)
    (hh : k.refreshTokenHash = r.presentedHash) {e : SessionEntity} (he : e ∈ s.sessions)
    (hu : k.userId = e.userId) : (s.phase j).holds e.id = false := by
  obtain ⟨r', hr'⟩ := hS.refreshes j
  refine Bool.eq_false_iff.2 fun hhold => ?_
  simp only [Phase.holds, Bool.or_eq_true, decide_eq_true_eq, Option.any_eq_true,
    List.contains_iff_mem] at hhold
  rcases hhold with hlock | ⟨u, hup, hmark⟩
  · obtain ⟨e', he', hid, hh'⟩ := (hP.inv.views j r' hr').row hlock
    obtain rfl := hP.inv.id_inj he' he hid
    exact hP.users i j r r' hr hr' hij k hk e' he' hh hh' hu
  · obtain ⟨c, hp, -, hrows⟩ := hP.updates j u hup
    obtain ⟨-, e', he', hid, huser⟩ := hrows e.id (List.mem_append_right _ hmark)
    obtain rfl := hP.inv.id_inj he' he hid
    obtain ⟨k', hk', -, hkuser⟩ := (hP.inv.views j r' hr').reusing c (by rw [hp]; rfl)
    exact hP.users i j r r' hr hr' hij k hk k' hk'.1 hh hk'.2.1
      (hu.trans (huser.trans hkuser.symm))

/-- The next step of the request needs a free connection. -/
def Phase.needsConnection : Phase → Bool
  | requested | reuse _ | committed _ | userFound _ => true
  | _ => false

/-- The row whose lock the next step of the request takes. -/
def Phase.nextLock (sessions : List SessionEntity) (r : RefreshRequest) : Phase → Option Uuid
  | begun => (findByRefreshTokenHash r.presentedHash sessions).map (·.id)
  | revoking _ u => u.pending.head?
  | _ => none

/-- **A refresh waits for nothing but a connection or a row lock.** -/
theorem can_go_on {i : ι} {r : RefreshRequest} (hr : S.requests i = .refresh r)
    (hf : (s.phase i).finished = false) (hbulk : ∀ u, s.phase i ≠ .bulk u)
    (hc : (s.phase i).needsConnection = true → (S.env s).connection = true)
    (hfree : ∀ id, (s.phase i).nextLock s.sessions r = some id → (S.env s).locked id = false) :
    ∃ ev, ev ≠ .abort ∧
      (advance (S.env s) (S.newSession i) (S.requests i) ev (s.phase i)).isSome = true := by
  cases hp : s.phase i <;> rw [hp] at hf hc hbulk hfree <;> try cases hf
  case requested => exact ⟨.begin, by simp, by simp [advance, hr, hc rfl]⟩
  case begun =>
    refine ⟨.select, by simp, ?_⟩
    simp only [advance, hr]
    cases hfind : findByRefreshTokenHash r.presentedHash (S.env s).sessions with
    | none => rfl
    | some e =>
      rw [System.env_sessions] at hfind
      have hunlocked := hfree e.id (by simp [Phase.nextLock, hfind])
      simp [hunlocked]
  case locked c =>
    refine ⟨.callback .invalid, by simp, ?_⟩
    simp only [advance, hr]
    cases rotateCallback (S.newSession i) .invalid c <;> rfl
  case reuse c => exact ⟨.startRevokeAll .invalid, by simp, by simp [advance, hr, hc rfl]⟩
  case revoking c u =>
    cases hpend : u.pending with
    | nil => exact ⟨.endRevokeAll, by simp, by simp [advance, hr, hpend]⟩
    | cons id rest =>
      refine ⟨.visit, by simp, ?_⟩
      have hunlocked := hfree id (by simp [Phase.nextLock, hpend])
      simp only [advance, hr, Env.visit, hpend, hunlocked]
      simp only [Bool.false_eq_true, if_false]
      split <;> rfl
  case revokedAll c => exact ⟨.rollback, by simp, by simp [advance, hr]⟩
  case rotating res =>
    refine ⟨.insertSuccessor, by simp, ?_⟩
    simp only [advance, hr]
    split <;> rfl
  case inserted res =>
    refine ⟨.updatePredecessor, by simp, ?_⟩
    simp only [advance, hr]
    split <;> rfl
  case updated res => exact ⟨.commit, by simp, by simp [advance, hr]⟩
  case committed c => exact ⟨.findUser .found, by simp, by simp [advance, hr, hc rfl]⟩
  case userFound c => exact ⟨.findMemberships true, by simp, by simp [advance, hr, hc rfl]⟩
  case membershipsFound c => exact ⟨.sign true, by simp, by simp [advance, hr]⟩
  case bulk u => exact absurd rfl (hbulk u)

/-- A row of the user whose token a request presents is locked by that request or by none. -/
theorem unlocked_row {sessions : List SessionEntity} (hS : Independent S sessions)
    (hP : PoolInv S sessions n s) {i : ι} {r : RefreshRequest} (hr : S.requests i = .refresh r)
    {k : SessionEntity} (hk : k ∈ s.sessions) (hh : k.refreshTokenHash = r.presentedHash)
    {e : SessionEntity} (he : e ∈ s.sessions) (hu : k.userId = e.userId)
    (hown : (s.phase i).holds e.id = false) : (S.env s).locked e.id = false := by
  rw [System.env_locked]
  intro j
  by_cases hij : i = j
  · rw [← hij]; exact hown
  · exact not_held hS hP hij hr hk hh he hu

/-- **Locks never make an independent request wait**: if it is unfinished and has the connection
its next step needs, it can go on. -/
theorem can_step {sessions : List SessionEntity} (hS : Independent S sessions)
    (hP : PoolInv S sessions n s) (i : ι) (hf : (s.phase i).finished = false)
    (hc : (s.phase i).needsConnection = true → (S.env s).connection = true) :
    ∃ ev, ev ≠ .abort ∧
      (advance (S.env s) (S.newSession i) (S.requests i) ev (s.phase i)).isSome = true := by
  obtain ⟨r, hr⟩ := hS.refreshes i
  have hup := hP.updates i
  refine can_go_on hr hf (fun u hp => ?_) hc (fun id hlock => ?_)
  · obtain ⟨c, hcc, -⟩ := hup u (by rw [hp]; rfl)
    rw [hp] at hcc
    cases hcc
  cases hp : s.phase i <;> rw [hp] at hlock hup <;> try cases hlock
  case begun =>
    obtain ⟨e, hfind, rfl⟩ := Option.map_eq_some_iff.1 hlock
    obtain ⟨he, hh⟩ := findByRefreshTokenHash_some hfind
    exact unlocked_row hS hP hr he hh he rfl (by rw [hp]; rfl)
  case revoking c u =>
    obtain ⟨rest, hpend⟩ := List.head?_eq_some_iff.1 hlock
    obtain ⟨c', hcc, hnodup, hrows⟩ := hup u rfl
    obtain ⟨rfl, -⟩ : c' = c ∧ u = u := by simpa [eq_comm] using hcc
    have hmem : id ∈ u.pending ++ u.marked := by simp [hpend]
    obtain ⟨hne, e, he, rfl, huser⟩ := hrows id hmem
    obtain ⟨k, hk, hkid, hkuser⟩ := (hP.inv.views i r hr).reusing c' (by rw [hp]; rfl)
    have hmark : e.id ∉ u.marked := by
      rw [hpend, List.cons_append, List.nodup_cons, List.mem_append] at hnodup
      exact fun h => hnodup.1 (Or.inr h)
    -- the row is neither the one it has locked nor one it has marked
    have hown : (s.phase i).holds e.id = false := by
      rw [hp]
      simp [Phase.holds, Phase.rowLock, Phase.update, hne.symm, hmark]
    exact unlocked_row hS hP hr hk.1 hk.2.1 he (hkuser.trans huser.symm) hown

/-- A request that waits for a connection while it holds one is a replay. -/
theorem holds_while_waiting {sessions : List SessionEntity} (hS : Independent S sessions)
    (hP : PoolInv S sessions n s) {j : ι} (hw : (s.phase j).needsConnection = true)
    (hc : (s.phase j).connections ≠ 0) :
    (s.phase j).connections = 1 ∧ S.replays sessions j = true := by
  obtain ⟨r, hr⟩ := hS.refreshes j
  have hv := hP.inv.views j r hr
  have hrep := hP.replays j
  cases hp : s.phase j <;> rw [hp] at hw hc hv hrep <;> cases hw
  case reuse c =>
    obtain ⟨e, he, -⟩ := hv.reusing c rfl
    exact ⟨rfl, hrep rfl ((replays_iff hr).2 ⟨e, he⟩)⟩
  all_goals exact absurd rfl hc

theorem finished_connections {p : Phase} (h : p.finished = true) : p.connections = 0 := by
  cases p <;> first | rfl | cases h

/-- **With fewer replays than connections nobody gets stuck.** -/
theorem not_stuck [DecidableEq ι] {sessions : List SessionEntity} (hcap : S.capacity = some n)
    (hS : Independent S sessions) (hP : PoolInv S sessions n s)
    (hn : (Finset.univ.filter fun i => S.replays sessions i = true).card < n) {i : ι}
    (hf : (s.phase i).finished = false) : ∃ j ev, ev ≠ .abort ∧ (S.step s (j, ev)).isSome = true := by
  by_contra hstuck
  push Not at hstuck
  have hno : ∀ j, (s.phase j).finished = false →
      (s.phase j).needsConnection = true ∧ (S.env s).connection = false := by
    intro j hj
    by_contra hc
    obtain ⟨ev, hev, hsome⟩ := can_step hS hP j hj (fun h => by
      by_contra hfree
      exact hc ⟨h, by simpa using hfree⟩)
    exact hstuck j ev hev (by simpa [System.step] using hsome)
  have hfull : System.used s = n := by
    have := (hno i hf).2
    simp only [System.env, hcap, decide_eq_false_iff_not, not_lt] at this
    exact le_antisymm hP.used this
  -- each connection is held by a replay
  have hle : System.used s ≤ (Finset.univ.filter fun i => S.replays sessions i = true).card := by
    rw [Finset.card_filter]
    refine Finset.sum_le_sum fun j _ => ?_
    by_cases hc : (s.phase j).connections = 0
    · omega
    have hfin : (s.phase j).finished = false :=
      Bool.eq_false_iff.2 fun h => hc (finished_connections h)
    obtain ⟨hone, hrep⟩ := holds_while_waiting hS hP (hno j hfin).1 hc
    rw [hone, if_pos hrep]
  omega

theorem poolInv_start {sessions : List SessionEntity} (hS : Independent S sessions) :
    PoolInv S sessions n (S.start sessions) where
  inv := inv_init hS.ids hS.hashes hS.unused
  users := hS.users
  updates i u h := by simp [System.start, Phase.update] at h
  replays i _ h := h
  used := by simp [System.used, System.start, Phase.connections]

/-- A step takes a connection only when one is free. -/
theorem move_connections {env : Env} {new : NewSession} {req : Request} {ev : Event} {p p' : Phase}
    {eff : Effect} (h : Move env new req ev p p' eff) :
    p'.connections ≤ p.connections ∨
      (env.connection = true ∧ p'.connections = p.connections + 1) := by
  cases h <;> simp_all [Phase.connections]

/-- The replay's own steps keep its UPDATE on rows of its user other than the one it locked. -/
theorem move_updates {sessions : List SessionEntity} (hP : PoolInv S sessions n s) {i : ι}
    {r : RefreshRequest} (hr : S.requests i = .refresh r) {ev : Event} {p : Phase} {eff : Effect}
    (hm : Move (S.env s) (S.newSession i) (S.requests i) ev (s.phase i) p eff) {u : RevokeAll}
    (hu : p.update = some u) : ∃ c, p = .revoking c u ∧ (u.pending ++ u.marked).Nodup ∧
      ∀ id ∈ u.pending ++ u.marked, id ≠ c.id ∧ ∃ e ∈ s.sessions, e.id = id ∧ e.userId = c.userId := by
  have hview := hP.inv.views i r hr
  have hold := hP.updates i
  rw [hr] at hm
  generalize hq : s.phase i = q at hm hview hold
  cases hm with
  | startRevokeAll _ now c _ =>
    cases hu
    obtain ⟨k, hk, hkid, -⟩ := hview.reusing c rfl
    refine ⟨c, rfl, ?_, fun id hid => ?_⟩
    · simpa [Env.startRevokeAll] using candidates_nodup hP.inv.ids _
    · simp only [Env.startRevokeAll, List.append_nil, mem_candidates, System.env_sessions] at hid
      obtain ⟨e, he, rfl, huser, hrev⟩ := hid
      refine ⟨fun heq => ?_, e, he, rfl, huser⟩
      obtain rfl := hP.inv.id_inj he hk.1 (heq.trans hkid.symm)
      simpa [SessionEntity.revoked, hrev] using hk.2.2
  | visit _ c u₀ _ hv =>
    cases hu
    obtain ⟨c', hc, hnodup, hrows⟩ := hold u₀ rfl
    cases hc
    refine ⟨c, rfl, ?_⟩
    obtain ⟨id, rest, hpend, -, hrest, ⟨-, hmk⟩ | ⟨-, hmk⟩⟩ := visit_spec hv
    · have hperm : (u.pending ++ u.marked).Perm (u₀.pending ++ u₀.marked) := by
        rw [hrest, hmk, hpend]; exact List.perm_middle
      exact ⟨hperm.nodup_iff.2 hnodup, fun id hid => hrows id (hperm.mem_iff.1 hid)⟩
    · have hsub : (u.pending ++ u.marked).Sublist (u₀.pending ++ u₀.marked) := by
        rw [hrest, hmk, hpend]; exact (List.sublist_cons_self _ _).append_right _
      exact ⟨hnodup.sublist hsub, fun id hid => hrows id (hsub.mem hid)⟩
  | _ => cases hu

/-- Until a refresh has decided, its steps leave the table alone. -/
theorem move_undecided {env : Env} {new : NewSession} {r : RefreshRequest} {ev : Event}
    {p p' : Phase} {eff : Effect} (h : Move env new (.refresh r) ev p p' eff)
    (hp : p'.undecided = true) : p.undecided = true ∧ eff = .none := by
  cases h <;> first | exact ⟨rfl, rfl⟩ | cases hp

variable [DecidableEq ι]

theorem used_step (hcap : S.capacity = some n) (hu : System.used s ≤ n) {a : ι × Event}
    (h : S.step s a = some t) : System.used t ≤ n := by
  obtain ⟨i, ev⟩ := a
  obtain ⟨p, eff, hm, rfl⟩ := System.step_move h
  have hsum : ∀ q : Phase, (∑ j, (Function.update s.phase i q j).connections) =
      q.connections + ∑ j ∈ Finset.univ.erase i, (s.phase j).connections := by
    intro q
    rw [← Finset.add_sum_erase _ _ (Finset.mem_univ i)]
    congr 1
    · simp
    · refine Finset.sum_congr rfl fun j hj => ?_
      rw [Function.update_of_ne (Finset.ne_of_mem_erase hj)]
  have hold : System.used s = (s.phase i).connections +
      ∑ j ∈ Finset.univ.erase i, (s.phase j).connections := by
    rw [System.used, Finset.add_sum_erase _ (fun j => (s.phase j).connections) (Finset.mem_univ i)]
  simp only [System.used] at hu hold ⊢
  rw [hsum]
  rcases move_connections hm with hle | ⟨hfree, hone⟩
  · omega
  · have hlt : System.used s < n := by simpa [System.env, hcap] using hfree
    rw [System.used, hold] at hlt
    omega

/-- A row with a presented token is one the table had before the step. -/
theorem presented_row {sessions : List SessionEntity} (hS : Independent S sessions) (hI : Inv S s)
    {a : ι × Event} (h : S.step s a = some t) {i : ι} {r : RefreshRequest}
    (hr : S.requests i = .refresh r) {e : SessionEntity} (he : e ∈ t.sessions)
    (hh : e.refreshTokenHash = r.presentedHash) :
    ∃ e₀ ∈ s.sessions, Keeps e₀ e ∧ ((s.phase a.1).holds e₀.id = false → e = e₀) := by
  obtain ⟨j, ev⟩ := a
  obtain ⟨p, eff, hm, rfl⟩ := System.step_move h
  have hok := move_effect hI hm
  simp only [hok.apply, List.mem_append] at he
  rcases he with he | he
  · obtain ⟨e₀, he₀, rfl⟩ := List.mem_map.1 he
    exact ⟨e₀, he₀, hok.keeps e₀ he₀, hok.touched e₀ he₀⟩
  · exact absurd (hh.symm.trans (hok.fresh e he).2.1) (hS.unguessed i j r hr)

theorem poolInv_step {sessions : List SessionEntity} (hcap : S.capacity = some n)
    (hS : Independent S sessions) (hP : PoolInv S sessions n s) {a : ι × Event}
    (h : S.step s a = some t) : PoolInv S sessions n t where
  inv := inv_step hP.inv h
  used := used_step hcap hP.used h
  users := by
    intro i j r r' hr hr' hij e he e' he' hh hh'
    obtain ⟨e₀, he₀, hk, -⟩ := presented_row hS hP.inv h hr he hh
    obtain ⟨e₁, he₁, hk', -⟩ := presented_row hS hP.inv h hr' he' hh'
    rw [hk.userId, hk'.userId]
    exact hP.users i j r r' hr hr' hij e₀ he₀ e₁ he₁ (hk.hash.symm.trans hh) (hk'.hash.symm.trans hh')
  updates := by
    obtain ⟨i, ev⟩ := a
    intro j u hu
    have hrow : ∀ e ∈ s.sessions, ∃ e' ∈ t.sessions, e'.id = e.id ∧ e'.userId = e.userId := by
      intro e he
      obtain ⟨e', he', hk⟩ := step_keeps hP.inv h he
      exact ⟨e', he', hk.id, hk.userId⟩
    have hold : ∃ c, t.phase j = .revoking c u ∧ (u.pending ++ u.marked).Nodup ∧
        ∀ id ∈ u.pending ++ u.marked, id ≠ c.id ∧
          ∃ e ∈ s.sessions, e.id = id ∧ e.userId = c.userId := by
      obtain ⟨p, eff, hm, rfl⟩ := System.step_move h
      by_cases hji : j = i
      · subst hji
        obtain ⟨r, hr⟩ := hS.refreshes j
        simp only [Function.update_self] at hu ⊢
        exact move_updates hP hr hm hu
      · simp only [Function.update_of_ne hji] at hu ⊢
        exact hP.updates j u hu
    obtain ⟨c, hc, hnodup, hrows⟩ := hold
    refine ⟨c, hc, hnodup, fun id hid => ?_⟩
    obtain ⟨hne, e, he, rfl, huser⟩ := hrows id hid
    obtain ⟨e', he', hid', huser'⟩ := hrow e he
    exact ⟨hne, e', he', hid', huser'.trans huser⟩
  replays := by
    obtain ⟨i, ev⟩ := a
    intro j hj hrep
    obtain ⟨r, hr⟩ := hS.refreshes j
    obtain ⟨e, he⟩ := (replays_iff hr).1 hrep
    obtain ⟨e₀, he₀, hk, hsame⟩ := presented_row hS hP.inv h hr he.1 he.2.1
    have hh₀ : e₀.refreshTokenHash = r.presentedHash := hk.hash.symm.trans he.2.1
    obtain ⟨p, eff, hm, ht⟩ := System.step_move h
    by_cases hji : j = i
    · subst hji
      rw [hr] at hm
      obtain ⟨hold, rfl⟩ := move_undecided hm (by simpa [ht] using hj)
      refine hP.replays j hold ((replays_iff hr).2 ⟨e, ?_, he.2⟩)
      simpa [ht, Effect.apply] using he.1
    · -- nobody else can revoke the row
      have hfree := not_held hS hP hji hr he₀ hh₀ he₀ rfl
      obtain rfl := hsame hfree
      refine hP.replays j ?_ ((replays_iff hr).2 ⟨e, he₀, he.2⟩)
      simpa [ht, Function.update_of_ne hji] using hj

theorem poolInv_exec {sessions : List SessionEntity} (hcap : S.capacity = some n)
    (hS : Independent S sessions) (hP : PoolInv S sessions n s) {as : List (ι × Event)}
    (h : exec S.step s as = some t) : PoolInv S sessions n t :=
  invariant (fun _ _ _ hP h => poolInv_step hcap hS hP h) hP h

/-! ## As many replays as connections -/

/-- With a connection left, one more replay gets as far as its UPDATE. -/
theorem replay_begins {sessions : List SessionEntity} (hcap : S.capacity = some n)
    (hS : Independent S sessions) (hP : PoolInv S sessions n s) (hs : s.sessions = sessions)
    (hu : System.used s < n) {i : ι} (hp : s.phase i = .requested)
    (hrep : S.replays sessions i = true) :
    ∃ as c, exec S.step s as = some ⟨sessions, Function.update s.phase i (.reuse c)⟩ := by
  obtain ⟨r, hr⟩ := hS.refreshes i
  subst hs
  have hbegin : S.step s (i, .begin) = some ⟨s.sessions, Function.update s.phase i .begun⟩ := by
    have hc : (S.env s).connection = true := by simpa [System.env, hcap] using hu
    simp [System.step, advance, hr, hp, hc, Effect.apply]
  have hP' := poolInv_step hcap hS hP hbegin
  set s' : State ι := ⟨s.sessions, Function.update s.phase i .begun⟩ with hs'
  obtain ⟨e, hfind⟩ : ∃ e, findByRefreshTokenHash r.presentedHash s.sessions = some e := by
    obtain ⟨e, he⟩ := (replays_iff hr).1 hrep
    rw [← Option.ne_none_iff_exists']
    exact fun hnone => findByRefreshTokenHash_none.1 hnone e he.1 he.2.1
  obtain ⟨he, hh⟩ := findByRefreshTokenHash_some hfind
  have hrev : e.toAggregate.isRevoked = true := by
    obtain ⟨k, hk⟩ := (replays_iff hr).1 hrep
    obtain rfl := hP.inv.hash_inj hk.1 he (hk.2.1.trans hh.symm)
    exact hk.2.2
  have hselect : S.step s' (i, .select) =
      some ⟨s.sessions, Function.update s.phase i (.locked e.toAggregate)⟩ := by
    have hfree : ∀ j, (Function.update s.phase i .begun j).holds e.id = false := by
      intro j
      by_cases hij : i = j
      · subst hij; simp [Phase.holds, Phase.rowLock, Phase.update]
      · exact not_held hS hP' hij hr he hh he rfl
    simp [System.step, advance, hr, hs', Effect.apply, hfind, hfree]
  refine ⟨[(i, .begin), (i, .select), (i, .callback .invalid)], e.toAggregate.markReuseDetected .invalid,
    exec_cons.2 ⟨_, hbegin, exec_cons.2 ⟨_, hselect, exec_cons.2 ⟨_, ?_, exec_nil.2 rfl⟩⟩⟩⟩
  simp [System.step, advance, hr, rotateCallback, hrev, Effect.apply]

theorem used_reuse {l : List ι} (hl : l.Nodup) (hin : ∀ i ∈ l, ∃ c, s.phase i = .reuse c)
    (hout : ∀ i, i ∉ l → s.phase i = .requested) : System.used s = l.length := by
  have hone : ∀ i, (s.phase i).connections = if i ∈ l.toFinset then 1 else 0 := by
    intro i
    split
    · rename_i hi
      obtain ⟨c, hc⟩ := hin i (List.mem_toFinset.1 hi)
      rw [hc]; rfl
    · rename_i hi
      rw [hout i (fun h => hi (List.mem_toFinset.2 h))]; rfl
  rw [System.used, Finset.sum_congr rfl fun i _ => hone i, ← Finset.card_filter,
    Finset.filter_mem_eq_inter, Finset.univ_inter, List.toFinset_card_of_nodup hl]

/-- **As many replays as connections can all get as far as their UPDATE.** -/
theorem stuck_run {sessions : List SessionEntity} (hcap : S.capacity = some n)
    (hS : Independent S sessions) {l : List ι} (hl : l.Nodup) (hlen : l.length ≤ n)
    (hrep : ∀ i ∈ l, S.replays sessions i = true) :
    ∃ as s, exec S.step (S.start sessions) as = some s ∧ s.sessions = sessions ∧
      (∀ i ∈ l, ∃ c, s.phase i = .reuse c) ∧ ∀ i, i ∉ l → s.phase i = .requested := by
  induction l with
  | nil => exact ⟨[], _, exec_nil.2 rfl, rfl, by simp, fun _ _ => rfl⟩
  | cons i l ih =>
    rw [List.nodup_cons] at hl
    rw [List.length_cons] at hlen
    obtain ⟨as, s, hs, hsess, hin, hout⟩ := ih hl.2 (by omega)
      (fun j hj => hrep j (List.mem_cons_of_mem _ hj))
    have hused : System.used s < n := by
      rw [used_reuse hl.2 hin hout]; omega
    obtain ⟨bs, c, hbs⟩ := replay_begins hcap hS (poolInv_exec hcap hS (poolInv_start hS) hs) hsess
      hused (hout i hl.1) (hrep i List.mem_cons_self)
    refine ⟨as ++ bs, _, exec_append.2 ⟨s, hs, hbs⟩, rfl, ?_, ?_⟩
    · intro j hj
      by_cases hji : j = i
      · exact ⟨c, by simp [hji]⟩
      · simp only [Function.update_of_ne hji]
        exact hin j ((List.mem_cons.1 hj).resolve_left hji)
    · intro j hj
      rw [List.mem_cons, not_or] at hj
      simp only [Function.update_of_ne hj.1]
      exact hout j hj.2

/-- Some request is unfinished and none can go on. `abort` is not a step of the code. -/
def Stuck (S : System ι) (s : State ι) : Prop :=
  (∃ i, (s.phase i).finished = false) ∧ ∀ i ev, ev ≠ .abort → S.step s (i, ev) = none

/-- **Concurrent refreshes of different users never starve each other of connections if and only
if fewer of them present a revoked session's token than the pool has connections.** -/
theorem pool_never_stuck_iff {sessions : List SessionEntity} (hn : 0 < n)
    (hcap : S.capacity = some n) (hS : Independent S sessions) :
    (∀ as s, exec S.step (S.start sessions) as = some s → ¬ Stuck S s) ↔
      (Finset.univ.filter fun i => S.replays sessions i = true).card < n := by
  constructor
  · intro h
    by_contra hle
    push Not at hle
    obtain ⟨l, hsub, hcard⟩ := Finset.exists_subset_card_eq hle
    obtain ⟨as, s, hs, hsess, hin, hout⟩ := stuck_run hcap hS l.nodup_toList
      (by rw [Finset.length_toList, hcard])
      (fun i hi => (Finset.mem_filter.1 (hsub (Finset.mem_toList.1 hi))).2)
    have hused : System.used s = n := by
      rw [used_reuse l.nodup_toList hin hout, Finset.length_toList, hcard]
    have hfull : (S.env s).connection = false := by simp [System.env, hcap, hused]
    refine h as s hs ⟨?_, fun i ev hev => ?_⟩
    · obtain ⟨i, hi⟩ := Finset.card_pos.1 (hcard ▸ hn)
      obtain ⟨c, hc⟩ := hin i (Finset.mem_toList.2 hi)
      exact ⟨i, by rw [hc]; rfl⟩
    · obtain ⟨r, hr⟩ := hS.refreshes i
      by_cases hi : i ∈ l.toList
      · obtain ⟨c, hc⟩ := hin i hi
        cases ev <;> simp_all [System.step, advance]
      · have hp := hout i hi
        cases ev <;> simp_all [System.step, advance]
  · rintro hlt as s hs ⟨⟨i, hi⟩, hstuck⟩
    obtain ⟨j, ev, hev, hsome⟩ :=
      not_stuck hcap hS (poolInv_exec hcap hS (poolInv_start hS) hs) hlt hi
    rw [hstuck j ev hev] at hsome
    cases hsome

/-- Two users, each replaying a consumed token. -/
def replayPair (capacity : ℕ) : System (Fin 2) where
  requests i := .refresh ⟨i, .millis 100⟩
  newId := ⟨fun i => i.val + 10, fun i j h => Fin.ext (by simpa using h)⟩
  newHash := ⟨fun i => i.val + 10, fun i j h => Fin.ext (by simpa using h)⟩
  scanOrder := id
  capacity := some capacity

def consumedPair : List SessionEntity :=
  [⟨0, 0, 0, .millis 100, some (.millis 1), some 2, .millis 0, .millis 1⟩,
    ⟨1, 1, 1, .millis 100, some (.millis 1), some 3, .millis 0, .millis 1⟩]

theorem replayPair_independent (capacity : ℕ) : Independent (replayPair capacity) consumedPair where
  refreshes i := ⟨_, rfl⟩
  ids := by decide
  hashes := by decide
  unused := by
    show ∀ i : Fin 2, ∀ e ∈ consumedPair, e.id ≠ i.val + 10 ∧ e.refreshTokenHash ≠ i.val + 10
    decide
  unguessed := by
    rintro i j r ⟨⟩
    show i.val ≠ j.val + 10
    omega
  users := by
    rintro i j r r' ⟨⟩ ⟨⟩ hij e he e' he' hh hh' hu
    have key : ∀ e ∈ consumedPair, e.userId = e.refreshTokenHash := by decide
    rw [key e he, key e' he', hh, hh'] at hu
    exact hij (Fin.val_injective hu)

theorem pool_never_stuck_three : ∃ s,
    exec (replayPair 3).step ((replayPair 3).start consumedPair)
        [(0, .begin), (1, .begin), (0, .select), (1, .select), (0, .callback (.millis 2)),
          (1, .callback (.millis 2))] = some s ∧
      ¬ Stuck (replayPair 3) s := by
  have hnever := (pool_never_stuck_iff (by decide) rfl (replayPair_independent 3)).2 (by decide)
  obtain ⟨s, hs⟩ : ∃ s, exec (replayPair 3).step ((replayPair 3).start consumedPair)
      [(0, .begin), (1, .begin), (0, .select), (1, .select), (0, .callback (.millis 2)),
        (1, .callback (.millis 2))] = some s := ⟨_, rfl⟩
  exact ⟨s, hs, hnever _ s hs⟩

/-- **Two replays exhaust a pool of two**: both hold a connection and wait for another. -/
theorem pool_stuck_two : ∃ as s,
    exec (replayPair 2).step ((replayPair 2).start consumedPair) as = some s ∧
      Stuck (replayPair 2) s := by
  refine ⟨[(0, .begin), (1, .begin), (0, .select), (1, .select), (0, .callback (.millis 2)),
    (1, .callback (.millis 2))], _, rfl, ⟨0, by decide⟩, ?_⟩
  intro i ev hev
  rcases (by decide : ∀ i : Fin 2, i = 0 ∨ i = 1) i with rfl | rfl <;> cases ev <;>
    first | rfl | exact absurd rfl hev

end AccountApi
