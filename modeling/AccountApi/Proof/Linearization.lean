import AccountApi.Lib.OneTime
import AccountApi.Lib.Simulation
import AccountApi.Proof.SingleUse

/-!
# The session table as an atomic store of tokens

What the interleaved statements of logins, rotations and `revokeAllByUserId` updates amount to: a
store in which a token is issued, exchanged, refused, found spent or revoked at once. A request is
decided by one of its statements: a rotation by its commit, the other ends of a refresh by the
statement or the callback that finds out, an UPDATE by its end.

* `UpdatesOwn`: an UPDATE only ever visits and marks rows of its user.
* `Answers`: the phases of a request with an outcome; `move_answers` is for the steps that decide nothing.
* `Atomic.table`: the tokens after a step, from the rows it revokes and the rows it adds.
* `linearized_step`: a step is an action of the store, or none.
* `sessions_linearizable`: **every run is one of the atomic store.**
-/

namespace AccountApi

open Transition OneTime

variable {ι : Type} {S : System ι} {s t : State ι}

/-- The user whose sessions the request is revoking, and its running UPDATE. -/
def Request.revoking : Request → Phase → Option (Uuid × RevokeAll)
  | .refresh _, .revoking c u => some (c.userId, u)
  | .revokeAll userId, .bulk u => some (userId, u)
  | _, _ => none

/-- A running UPDATE visits and marks rows of its user. -/
def UpdatesOwn (S : System ι) (s : State ι) : Prop :=
  ∀ i v u, (S.requests i).revoking (s.phase i) = some (v, u) →
    ∀ id, id ∈ u.pending ∨ id ∈ u.marked → ∃ e ∈ s.sessions, e.id = id ∧ e.userId = v

section Moves

variable {env : Env} {new : NewSession} {req : Request} {ev : Event} {p p' : Phase} {eff : Effect}

/-- A visit takes its row from the candidates that are left. -/
theorem visit_subset {u u' : RevokeAll} (h : env.visit u = some u') {id : Uuid}
    (hid : id ∈ u'.pending ∨ id ∈ u'.marked) : id ∈ u.pending ∨ id ∈ u.marked := by
  obtain ⟨k, rest, hp, -, hrest, ⟨-, hm⟩ | ⟨-, hm⟩⟩ := visit_spec h
  all_goals
    rw [hrest, hm] at hid
    rw [hp, List.mem_cons]
    try rw [List.mem_cons] at hid
    tauto

/-- An UPDATE after a step has the user's rows for candidates, or was running before. -/
theorem move_revoking (h : Move env new req ev p p' eff) {v : Uuid} {u' : RevokeAll}
    (hu : req.revoking p' = some (v, u')) {id : Uuid} (hid : id ∈ u'.pending ∨ id ∈ u'.marked) :
    (∃ e ∈ env.sessions, e.id = id ∧ e.userId = v) ∨
      ∃ u, req.revoking p = some (v, u) ∧ (id ∈ u.pending ∨ id ∈ u.marked) := by
  cases h with
  | startRevokeAll r now c _ | startBulk w now _ =>
    obtain ⟨rfl, rfl⟩ := Prod.mk.inj (Option.some.inj hu)
    simp only [Env.startRevokeAll, List.not_mem_nil, or_false] at hid
    obtain ⟨e, he, rfl, huser, -⟩ := mem_candidates.1 hid
    exact Or.inl ⟨e, he, rfl, huser⟩
  | visit r c u _ hv | visitBulk w u _ hv =>
    obtain ⟨rfl, rfl⟩ := Prod.mk.inj (Option.some.inj hu)
    exact Or.inr ⟨u, rfl, visit_subset hv hid⟩
  | _ => cases hu

theorem rotateCallback_expired {n : NewSession} {now : Date} {c : SessionAggregate}
    (h : rotateCallback n now c = .expired) : c.isRevoked = false ∧ c.isExpired now = true := by
  unfold rotateCallback at h
  split at h
  · cases h
  rename_i hr
  split at h
  · rename_i he
    exact ⟨by simpa using hr, he⟩
  · cases h

/-- A refresh that has rotated is one for ever. -/
theorem move_keeps_rotated (h : Move env new req ev p p' eff) (hr : p.rotated = true) :
    p'.rotated = true := by
  cases h with
  | abort r p hc => cases p <;> simp_all [Phase.rotated, Phase.connections]
  | _ => first | rfl | cases hr

/-- A request that has ended takes no further step. -/
theorem move_unfinished (h : Move env new req ev p p' eff) : p.finished = false := by
  cases h with
  | abort r p hc => cases p <;> first | rfl | exact absurd rfl hc
  | _ => rfl

/-- The reuse branch ends in the reuse exception, or in a failure. -/
theorem move_reuse_ends (h : Move env new req ev p p' eff) {c : SessionAggregate} (hc : p.reusing = some c) :
    p'.reusing = some c ∨ p' = .failed .refreshTokenReuseDetected ∨ p' = .failed .failure := by
  cases h with
  | startRevokeAll r now c' _ | visit r c' u u' _ | endRevokeAll r c' u _ => exact Or.inl hc
  | rollback r c' => exact Or.inr (Or.inl rfl)
  | abort r p _ => exact Or.inr (Or.inr rfl)
  | _ => cases hc

end Moves

/-- No statement has decided the request. -/
def Phase.unanswered : Phase → Bool
  | requested | begun | locked _ | rotating _ | inserted _ | updated _ | failed .failure | bulk _ | bulkDone => true
  | _ => false

theorem Phase.unanswered_rotated (p : Phase) (h : p.unanswered = true) : p.rotated = false := by
  cases p <;> first | rfl | cases h

theorem Phase.unanswered_reusing (p : Phase) (h : p.unanswered = true) : p.reusing = .none := by
  cases p <;> first | rfl | cases h

/-- The phases of a request with the outcome. -/
def Answers (p : Phase) : Option (Outcome TokenHash Uuid Date) → Prop
  | none => p.unanswered = true
  | some (.issued _) => p = .loggedIn
  | some (.exchanged _) => p.rotated = true
  | some .unknown | some (.expired _) => p = .failed .invalidRefreshToken
  | some (.reused token) => (∃ c, p.reusing = some c ∧ c.userId = token.user) ∨
      p = .failed .refreshTokenReuseDetected ∨ p = .failed .failure

theorem Answers.none {p : Phase} {o : Option (Outcome TokenHash Uuid Date)} (h : Answers p o)
    (hp : p.unanswered = true) (hf : p ≠ .failed .failure) : o = none := by
  match o, h with
  | .none, _ => rfl
  | some (.issued _), h => subst h; cases hp
  | some (.exchanged _), h =>
    rw [Answers, p.unanswered_rotated hp] at h
    cases h
  | some .unknown, h | some (.expired _), h => subst h; cases hp
  | some (.reused _), h =>
    obtain ⟨c, hc, -⟩ | rfl | rfl := h
    · rw [p.unanswered_reusing hp] at hc
      cases hc
    · cases hp
    · exact absurd rfl hf

theorem Answers.reusing {p : Phase} {o : Option (Outcome TokenHash Uuid Date)} (h : Answers p o)
    {c : SessionAggregate} (hc : p.reusing = some c) : ∃ token, o = some (.reused token) ∧ token.user = c.userId := by
  have hdecided : p.unanswered = false ∧ p.rotated = false ∧ p.finished = false := by
    cases p <;> first | cases hc; done | exact ⟨rfl, rfl, rfl⟩
  obtain ⟨hu, hr, hf⟩ := hdecided
  match o, h with
  | .none, h => rw [Answers, hu] at h; cases h
  | some (.issued _), h | some .unknown, h | some (.expired _), h => subst h; cases hf
  | some (.exchanged _), h => rw [Answers, hr] at h; cases h
  | some (.reused token), h =>
    obtain ⟨c', hc', huser⟩ | rfl | rfl := h
    · obtain rfl := Option.some.inj (hc.symm.trans hc')
      exact ⟨token, rfl, huser.symm⟩
    · cases hf
    · cases hf

/-- **A step that decides nothing** keeps the outcome. -/
theorem move_answers {env : Env} {new : NewSession} {req : Request} {ev : Event} {p p' : Phase} {eff : Effect}
    (h : Move env new req ev p p' eff) (hu : p.unanswered = true → p'.unanswered = true)
    {o : Option (Outcome TokenHash Uuid Date)} (ho : Answers p o) : Answers p' o := by
  have hend := move_unfinished h
  match o, ho with
  | none, ho => exact hu ho
  | some (.issued _), ho => subst ho; cases hend
  | some (.exchanged _), ho => exact move_keeps_rotated h ho
  | some .unknown, ho | some (.expired _), ho => subst ho; cases hend
  | some (.reused token), ho =>
    obtain ⟨c, hc, huser⟩ | rfl | rfl := ho
    · rcases move_reuse_ends h hc with hc' | hended
      · exact Or.inl ⟨c, hc', huser⟩
      · exact Or.inr hended
    · cases hend
    · cases hend

def SessionEntity.token (e : SessionEntity) : Token TokenHash Uuid Date :=
  ⟨e.refreshTokenHash, e.userId, e.refreshTokenExpiresAt⟩

def Request.demand : Request → Demand TokenHash Uuid
  | .refresh r => .exchange r.presentedHash
  | .login l => .issue l.userId
  | .revokeAll userId => .revoke userId

def System.clients (S : System ι) : Clients ι TokenHash Uuid Date where
  demand i := (S.requests i).demand
  newKey := S.newHash
  expiry := S.expiresAt

/-- The table and the requests are those of the atomic store. -/
structure Atomic (s : State ι) (a : Store ι TokenHash Uuid Date) : Prop where
  live : ∀ token, token ∈ a.live ↔ ∃ e ∈ s.sessions, e.token = token ∧ e.revokedAt = none
  spent : ∀ token, token ∈ a.spent ↔ ∃ e ∈ s.sessions, e.token = token ∧ e.revoked
  outcome : ∀ i, Answers (s.phase i) (a.outcome i)

theorem atomic_start (S : System ι) : Atomic (S.start []) Store.empty where
  live := by simp [System.start, Store.empty]
  spent := by simp [System.start, Store.empty]
  outcome _ := rfl

variable [Fintype ι] [DecidableEq ι]

theorem updatesOwn_step (hI : Inv S s) (hU : UpdatesOwn S s) {a : ι × Event}
    (h : S.step s a = some t) : UpdatesOwn S t := by
  obtain ⟨i, ev⟩ := a
  intro j v u hu id hid
  have hrow : ∃ e ∈ s.sessions, e.id = id ∧ e.userId = v := by
    obtain ⟨p, eff, hm, rfl⟩ := System.step_move h
    by_cases hji : j = i
    · subst hji
      simp only [Function.update_self] at hu
      rcases move_revoking hm hu hid with hrow | ⟨u', hu', hid'⟩
      · exact hrow
      · exact hU j v u' hu' id hid'
    · simp only [Function.update_of_ne hji] at hu
      exact hU j v u hu id hid
  obtain ⟨e, he, rfl, rfl⟩ := hrow
  obtain ⟨e', he', hk⟩ := step_keeps hI h he
  exact ⟨e', he', hk.id, hk.userId⟩

omit [Fintype ι] [DecidableEq ι] in
/-- Two rows of one token are one row. -/
theorem Inv.token_inj (hI : Inv S s) {e e' : SessionEntity} (he : e ∈ s.sessions) (he' : e' ∈ s.sessions)
    (h : e.token = e'.token) : e = e' :=
  hI.hash_inj he he' (congrArg Token.key h)

omit [DecidableEq ι] in
/-- A new version of a row is one of the same token. -/
theorem rewrite_token (hI : Inv S s) {i : ι} {ev : Event} {p : Phase} {eff : Effect}
    (h : Move (S.env s) (S.newSession i) (S.requests i) ev (s.phase i) p eff) {e : SessionEntity}
    (he : e ∈ s.sessions) : (eff.rewrite e).token = e.token := by
  have hok := move_effect hI h
  generalize hreq : S.requests i = req at h
  generalize hphase : s.phase i = q at h
  cases h with
  | commit r res =>
    obtain ⟨c, now, hc, -, hcb⟩ := (hI.views i r hreq).rotating res (by rw [hphase]; rfl)
    obtain ⟨-, -, rfl⟩ := rotateCallback_rotate hcb
    simp only [Effect.rewrite]
    split
    · rename_i hid
      obtain rfl := hI.id_inj he hc hid
      rfl
    · rfl
  | endRevokeAll r c u _ | endBulk v u _ =>
    simp only [Effect.rewrite, markRevoked]
    split <;> rfl
  | _ => rfl

omit [DecidableEq ι] in
/-- **The tokens after a step**: those of the rows it revokes are spent, those of the rows it adds live. -/
theorem Atomic.table {a : Store ι TokenHash Uuid Date} (hA : Atomic s a) (hI : Inv S s) {i : ι} {ev : Event}
    {p : Phase} {eff : Effect}
    (h : Move (S.env s) (S.newSession i) (S.requests i) ev (s.phase i) p eff)
    (b : Store ι TokenHash Uuid Date) (revoked : Token TokenHash Uuid Date → Prop) (phase : ι → Phase)
    (hrevoked : ∀ e ∈ s.sessions, e.revokedAt = none → (revoked e.token ↔ (eff.rewrite e).revoked))
    (hlive : ∀ token, token ∈ b.live ↔ (token ∈ a.live ∧ ¬ revoked token) ∨ ∃ e ∈ eff.inserted, e.token = token)
    (hspent : ∀ token, token ∈ b.spent ↔ token ∈ a.spent ∨ (token ∈ a.live ∧ revoked token))
    (houtcome : ∀ j, Answers (phase j) (b.outcome j)) :
    Atomic ⟨eff.apply s.sessions, phase⟩ b := by
  have hok := move_effect hI h
  have hrow := fun {e} he => rewrite_token hI h (e := e) he
  have hdead : ∀ e : SessionEntity, e.revokedAt = none ↔ ¬ e.revoked := fun e => by
    simp [SessionEntity.revoked]
  rw [hok.apply]
  refine ⟨?_, ?_, houtcome⟩
  · intro token
    rw [hlive, hA.live]
    constructor
    · rintro (⟨⟨e, he, rfl, hun⟩, hnot⟩ | ⟨e, he, rfl⟩)
      · have hun' : (eff.rewrite e).revokedAt = none := (hdead _).2 fun hr => hnot ((hrevoked e he hun).2 hr)
        exact ⟨_, List.mem_append_left _ (List.mem_map_of_mem he), hrow he, hun'⟩
      · exact ⟨e, List.mem_append_right _ he, rfl, (hok.fresh e he).2.2.1⟩
    · rintro ⟨e', he', rfl, hun'⟩
      rcases List.mem_append.1 he' with hold | hnew
      · obtain ⟨e, he, rfl⟩ := List.mem_map.1 hold
        have hun : e.revokedAt = none := (hdead e).2 fun hr => (hdead _).1 hun' ((hok.keeps e he).revoked hr)
        rw [hrow he]
        exact Or.inl ⟨⟨e, he, rfl, hun⟩, fun hr => (hdead _).1 hun' ((hrevoked e he hun).1 hr)⟩
      · exact Or.inr ⟨e', hnew, rfl⟩
  · intro token
    rw [hspent, hA.live, hA.spent]
    constructor
    · rintro (⟨e, he, rfl, hr⟩ | ⟨⟨e, he, rfl, hun⟩, hr⟩)
      · exact ⟨_, List.mem_append_left _ (List.mem_map_of_mem he), hrow he, (hok.keeps e he).revoked hr⟩
      · exact ⟨_, List.mem_append_left _ (List.mem_map_of_mem he), hrow he, (hrevoked e he hun).1 hr⟩
    · rintro ⟨e', he', rfl, hr'⟩
      rcases List.mem_append.1 he' with hold | hnew
      · obtain ⟨e, he, rfl⟩ := List.mem_map.1 hold
        rw [hrow he]
        by_cases hr : e.revoked
        · exact Or.inl ⟨e, he, rfl, hr⟩
        · have hun := (hdead e).2 hr
          exact Or.inr ⟨⟨e, he, rfl, hun⟩, (hrevoked e he hun).2 hr'⟩
      · exact absurd hr' ((hdead e').1 (hok.fresh e' hnew).2.2.1)

open Classical in
/-- **The end of an UPDATE** revokes the live tokens of the rows it has marked, all of them its user's. -/
theorem Atomic.revoke {a : Store ι TokenHash Uuid Date} (hA : Atomic s a) (hI : Inv S s) {i : ι} {ev : Event}
    {p : Phase} {eff : Effect}
    (h : Move (S.env s) (S.newSession i) (S.requests i) ev (s.phase i) p eff)
    (v : Uuid) (ids : List Uuid) (now : Date) (phase : ι → Phase) (heff : eff = .revokeAll ids now)
    (hown : ∀ id ∈ ids, ∃ e ∈ s.sessions, e.id = id ∧ e.userId = v)
    (hwho : S.clients.demand i = .revoke v ∨ (a.outcome i).bind (·.alarm) = some v)
    (houtcome : ∀ j, Answers (phase j) (a.outcome j)) :
    ∃ x b, Clients.Step S.clients Date.le a x b ∧ Atomic ⟨eff.apply s.sessions, phase⟩ b := by
  let tokens := a.live.filter fun token => ∃ e ∈ s.sessions, e.token = token ∧ e.id ∈ ids
  have htokens : ∀ e ∈ s.sessions, e.revokedAt = none → (e.token ∈ tokens ↔ e.id ∈ ids) := by
    intro e he hun
    simp only [tokens, Finset.mem_filter]
    constructor
    · rintro ⟨-, e', he', heq, hid⟩
      rwa [← hI.token_inj he' he heq]
    · intro hid
      exact ⟨(hA.live _).2 ⟨e, he, rfl, hun⟩, e, he, rfl, hid⟩
  have hsub : tokens ⊆ a.live := Finset.filter_subset _ _
  have huser : ∀ token ∈ tokens, token.user = v := by
    intro token ht
    obtain ⟨-, e, he, rfl, hid⟩ := Finset.mem_filter.1 ht
    obtain ⟨e', he', hid', rfl⟩ := hown e.id hid
    rw [hI.id_inj he' he hid']
    rfl
  refine ⟨_, _, .revoke i v tokens hwho hsub huser, hA.table hI h _ (· ∈ tokens) phase ?_ ?_ ?_ houtcome⟩
  · intro e he hun
    rw [htokens e he hun, heff]
    simp only [Effect.rewrite, markRevoked]
    by_cases hid : e.id ∈ ids
    · simp [hid, SessionEntity.revoked]
    · simp [hid, SessionEntity.revoked, hun]
  · intro token
    simp [heff, Effect.inserted]
  · intro token
    simp only [Finset.mem_union]
    exact or_congr_right ⟨fun ht => ⟨hsub ht, ht⟩, And.right⟩

omit [Fintype ι] in
/-- The requests after a step that decides one of them. -/
theorem answers_decided {a : Store ι TokenHash Uuid Date} (hA : ∀ j, Answers (s.phase j) (a.outcome j)) {i : ι}
    {p : Phase} {o : Outcome TokenHash Uuid Date} (ho : Answers p (some o)) :
    ∀ j, Answers (Function.update s.phase i p j) (Function.update a.outcome i (some o) j) := by
  intro j
  by_cases hji : j = i
  · subst hji
    rwa [Function.update_self, Function.update_self]
  · rw [Function.update_of_ne hji, Function.update_of_ne hji]
    exact hA j

omit [Fintype ι] in
/-- The requests after a step that decides nothing. -/
theorem answers_kept {a : Store ι TokenHash Uuid Date} (hA : ∀ j, Answers (s.phase j) (a.outcome j)) {i : ι}
    {p : Phase} (hi : Answers p (a.outcome i)) :
    ∀ j, Answers (Function.update s.phase i p j) (a.outcome j) :=
  forall_moved (p := s.phase) (P := fun j p => Answers p (a.outcome j)) (fun j hj => Function.update_of_ne hj _ _)
    (by rwa [Function.update_self]) fun j _ => hA j

/-- What the state of the atomic store stands for, with the invariants of the table. -/
structure Linearized (S : System ι) (a : Store ι TokenHash Uuid Date) (s : State ι) : Prop where
  inv : Inv S s
  updates : UpdatesOwn S s
  atomic : Atomic s a

/-- **Every step is an action of the atomic store, or none.** -/
theorem linearized_step : Simulates (S.clients.step Date.le) S.step (Linearized S) := by
  rintro a s ⟨i, ev⟩ s' ⟨hI, hU, hA⟩ hstep
  have hinv := inv_step hI hstep
  have hown := updatesOwn_step hI hU hstep
  suffices hmatch : (∃ x b, Clients.Step S.clients Date.le a x b ∧ Atomic s' b) ∨ Atomic s' a by
    rcases hmatch with ⟨x, b, hb, hA'⟩ | hA'
    · exact ⟨[x], b, exec_cons.2 ⟨b, Clients.step_iff.2 hb, exec_nil.2 rfl⟩, hinv, hown, hA'⟩
    · exact ⟨[], a, exec_nil.2 rfl, hinv, hown, hA'⟩
  obtain ⟨p, eff, hm, rfl⟩ := System.step_move hstep
  have htable := fun b revoked => hA.table hI hm b revoked (Function.update s.phase i p)
  have hkept : ((s.phase i).unanswered = true → p.unanswered = true) →
      ∀ j, Answers (Function.update s.phase i p j) (a.outcome j) :=
    fun hu => answers_kept hA.outcome (move_answers hm hu (hA.outcome i))
  have hsilent : eff = .none → ((s.phase i).unanswered = true → p.unanswered = true) →
      Atomic ⟨eff.apply s.sessions, Function.update s.phase i p⟩ a := by
    rintro rfl hu
    exact ⟨hA.live, hA.spent, hkept hu⟩
  have hdecided : ∀ o, eff = .none → Answers p (some o) →
      Atomic ⟨eff.apply s.sessions, Function.update s.phase i p⟩
        ⟨a.live, a.spent, Function.update a.outcome i (some o)⟩ := by
    rintro o rfl ho
    exact ⟨hA.live, hA.spent, answers_decided hA.outcome ho⟩
  have hrevoke := fun v ids now => hA.revoke hI hm v ids now (Function.update s.phase i p)
  have hview := hI.views i
  have hanswer := hA.outcome i
  have hrows := hU i
  generalize hreq : S.requests i = req at hm hview hrows
  generalize hphase : s.phase i = q at hm hsilent hkept hview hanswer hrows
  have hdemand : S.clients.demand i = req.demand := congrArg Request.demand hreq
  cases hm with
  | selectNone r hnone =>
    refine Or.inl ⟨_, _, .unknown i r.presentedHash hdemand (hanswer.none rfl (by simp)) ?_,
      hdecided .unknown rfl rfl⟩
    intro token ht hkey
    have hmem : ∃ e ∈ s.sessions, e.token = token := by
      rcases Finset.mem_union.1 ht with hl | hs
      · obtain ⟨e, he, heq, -⟩ := (hA.live token).1 hl
        exact ⟨e, he, heq⟩
      · obtain ⟨e, he, heq, -⟩ := (hA.spent token).1 hs
        exact ⟨e, he, heq⟩
    obtain ⟨e, he, rfl⟩ := hmem
    exact findByRefreshTokenHash_none.1 hnone e he hkey
  | reuse r now c c' hcb =>
    obtain ⟨hrev, rfl⟩ := rotateCallback_reuse hcb
    obtain ⟨hc, hh⟩ := (hview r rfl).locked c rfl
    refine Or.inl ⟨_, _, .reuse i c.toEntity.token (hdemand.trans (congrArg _ hh.symm))
      (hanswer.none rfl (by simp)) ((hA.spent _).2 ⟨c.toEntity, hc, rfl, hrev⟩), hdecided _ rfl ?_⟩
    exact Or.inl ⟨_, rfl, rfl⟩
  | expired r now c hcb =>
    obtain ⟨hc, hh⟩ := (hview r rfl).locked c rfl
    obtain ⟨hrev, hexp⟩ := rotateCallback_expired hcb
    refine Or.inl ⟨_, _, .expired i c.toEntity.token now (hdemand.trans (congrArg _ hh.symm))
      (hanswer.none rfl (by simp)) ((hA.live _).2 ⟨c.toEntity, hc, rfl, ?_⟩) hexp, hdecided _ rfl rfl⟩
    simpa [SessionAggregate.isRevoked] using hrev
  | commit r res =>
    obtain ⟨c, now, hc, hh, hcb⟩ := (hview r rfl).rotating res rfl
    obtain ⟨hrev, hexp, rfl⟩ := rotateCallback_rotate hcb
    have hun : c.toEntity.revokedAt = none := by simpa [SessionAggregate.isRevoked] using hrev
    have hmem : c.toEntity.token ∈ a.live := (hA.live _).2 ⟨c.toEntity, hc, rfl, hun⟩
    refine Or.inl ⟨_, _, .exchange i c.toEntity.token now (hdemand.trans (congrArg _ hh.symm))
      (hanswer.none rfl (by simp)) hmem hexp, ?_⟩
    refine htable _ (· = c.toEntity.token) ?_ ?_ ?_ (answers_decided hA.outcome rfl)
    · intro e he hune
      have hlive : ¬ e.revoked := by simp [SessionEntity.revoked, hune]
      simp only [Effect.rewrite]
      constructor
      · intro heq
        obtain rfl := hI.token_inj he hc heq
        have hid : c.toEntity.id = (c.revoke (S.newSession i).id now).toEntity.id := rfl
        rw [if_pos hid]
        rfl
      · intro hrev'
        split at hrev'
        · rename_i hid
          exact congrArg _ (hI.id_inj he hc hid)
        · exact absurd hrev' hlive
    · intro token
      have hnew : ((S.newSession i).build c.userId now).toEntity.token =
          S.clients.token i c.toEntity.token.user := rfl
      simp only [Finset.mem_insert, Finset.mem_erase, Effect.inserted, List.mem_singleton, exists_eq_left, hnew]
      rw [or_comm, and_comm, eq_comm (a := token) (b := S.clients.token i c.toEntity.token.user)]
    · intro token
      simp only [Finset.mem_insert]
      constructor
      · rintro (rfl | hs)
        · exact Or.inr ⟨hmem, rfl⟩
        · exact Or.inl hs
      · rintro (hs | ⟨-, rfl⟩)
        · exact Or.inr hs
        · exact Or.inl rfl
  | login l now hconn =>
    refine Or.inl ⟨_, _, .issue i l.userId hdemand (hanswer.none rfl (by simp)), ?_⟩
    refine htable _ (fun _ => False) ?_ ?_ ?_ (answers_decided hA.outcome rfl)
    · intro e he hun
      simp [SessionEntity.revoked, hun]
    · intro token
      have hnew : ((S.newSession i).build l.userId now).toEntity.token = S.clients.token i l.userId := rfl
      simp only [Finset.mem_insert, Effect.inserted, List.mem_singleton, exists_eq_left, not_false_eq_true,
        and_true, hnew]
      rw [or_comm, eq_comm (a := token)]
    · intro token
      simp
  | endRevokeAll r c u hpend =>
    obtain ⟨token, ho, huser⟩ := hanswer.reusing rfl
    have halarm : (a.outcome i).bind (·.alarm) = some c.userId := Clients.alarm_eq.2 ⟨token, ho, huser⟩
    exact Or.inl (hrevoke c.userId u.marked u.startedAt rfl (fun id hid => hrows _ u rfl id (Or.inr hid))
      (Or.inr halarm) (hkept fun h => by cases h))
  | endBulk v u hpend =>
    exact Or.inl (hrevoke v u.marked u.startedAt rfl (fun id hid => hrows v u rfl id (Or.inr hid))
      (Or.inl hdemand) (hkept fun _ => rfl))
  | _ => exact Or.inr (hsilent rfl (by first | exact fun _ => rfl | exact fun h => by cases h))

omit [Fintype ι] [DecidableEq ι] in
theorem linearized_start (S : System ι) : Linearized S Store.empty (S.start []) where
  inv := inv_start S
  updates i v u h := by
    cases hreq : S.requests i <;> simp [System.start, hreq, Request.revoking] at h
  atomic := atomic_start S

/-- **The session table is linearizable.** Every run of any number of logins, refreshes and
`revokeAllByUserId` updates, interleaved statement by statement and aborted anywhere, is a run of the
atomic store: after each part of it the live tokens are those of the un-revoked rows, the spent ones those
of the revoked rows, and a request has ended as the store has decided it, before the run goes on. -/
theorem sessions_linearizable (S : System ι) {as bs : List (ι × Event)} {s t : State ι}
    (hs : exec S.step (S.start []) as = some s) (ht : exec S.step s bs = some t) :
    ∃ cs ds a b, exec (S.clients.step Date.le) Store.empty cs = some a ∧
      exec (S.clients.step Date.le) a ds = some b ∧ Atomic s a ∧ Atomic t b := by
  obtain ⟨cs, a, ha, hLa⟩ := linearized_step.run (linearized_start S) hs
  obtain ⟨ds, b, hb, hLb⟩ := linearized_step.run hLa ht
  exact ⟨cs, ds, a, b, ha, hb, hLa.atomic, hLb.atomic⟩

/-- Request 3 presents the token that request 1 has exchanged. -/
theorem sessions_linearizable_replay : ∃ s t,
    exec replaySystem.step (replaySystem.start []) rotateOnce = some s ∧
      exec replaySystem.step s (replay ++ revokeChain) = some t ∧
      t.phase 3 = .failed .refreshTokenReuseDetected ∧
      ∃ cs ds a b, exec (replaySystem.clients.step Date.le) Store.empty cs = some a ∧
        exec (replaySystem.clients.step Date.le) a ds = some b ∧ Atomic s a ∧ Atomic t b := by
  obtain ⟨t, ht, hphase⟩ : ∃ t, exec replaySystem.step (replaySystem.start [])
      (rotateOnce ++ (replay ++ revokeChain)) = some t ∧ t.phase 3 = .failed .refreshTokenReuseDetected :=
    ⟨_, rfl, by decide⟩
  obtain ⟨s, hs, hst⟩ := exec_append.1 ht
  exact ⟨s, t, hs, hst, hphase, sessions_linearizable replaySystem hs hst⟩

end AccountApi
