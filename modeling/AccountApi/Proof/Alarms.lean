import AccountApi.Proof.Linearization

/-!
# No false alarm

`revokeAllByUserId` is called from one place, the reuse branch of the refresh. What sets it off, and
what it does to the number of sessions, is read off the atomic store.

* `Replayed`: a token of the user was exchanged by one refresh and presented to another.
* `no_false_alarm`: **only that makes a refresh take a token of the user for reused**, and only that
  revokes a session of theirs which was not exchanged.
* `live_sessions`: **a user never has more un-revoked sessions than logins**, and as many until then.
-/

namespace AccountApi

open Transition OneTime

variable {ι : Type} {S : System ι} {s : State ι} {userId : Uuid} {a : Store ι TokenHash Uuid Date}

/-- The session's token was exchanged for a successor. -/
def Exchanged (S : System ι) (s : State ι) (e : SessionEntity) : Prop :=
  ∃ j r, S.requests j = .refresh r ∧ r.presentedHash = e.refreshTokenHash ∧
    (s.phase j).rotated = true

/-- A token of the user was exchanged by one refresh and presented to another. -/
def Replayed (S : System ι) (s : State ι) (userId : Uuid) : Prop :=
  ∃ e ∈ s.sessions, e.userId = userId ∧ Exchanged S s e ∧
    ∃ i r, S.requests i = .refresh r ∧ r.presentedHash = e.refreshTokenHash ∧
      s.phase i ≠ .requested ∧ (s.phase i).rotated = false

/-- A refresh that was given a token of the user takes it for reused. -/
def Raised (S : System ι) (s : State ι) (userId : Uuid) : Prop :=
  ∃ i r, S.requests i = .refresh r ∧
    ((s.phase i).reusing.isSome = true ∨ s.phase i = .failed .refreshTokenReuseDetected) ∧
    ∃ e ∈ s.sessions, e.refreshTokenHash = r.presentedHash ∧ e.userId = userId

theorem demand_exchange {i : ι} {key : TokenHash} (h : S.clients.demand i = .exchange key) :
    ∃ r, S.requests i = .refresh r ∧ r.presentedHash = key := by
  simp only [System.clients] at h
  cases hreq : S.requests i with
  | refresh r =>
    rw [hreq] at h
    cases h
    exact ⟨r, rfl, rfl⟩
  | _ => rw [hreq] at h; cases h

theorem demand_issue {i : ι} {userId : Uuid} (h : S.clients.demand i = .issue userId) :
    ∃ l, S.requests i = .login l ∧ l.userId = userId := by
  simp only [System.clients] at h
  cases hreq : S.requests i with
  | login l =>
    rw [hreq] at h
    cases h
    exact ⟨l, rfl, rfl⟩
  | _ => rw [hreq] at h; cases h

theorem demand_revoke (hbulk : ∀ i, S.requests i ≠ .revokeAll userId) (i : ι) :
    S.clients.demand i ≠ .revoke userId := by
  intro h
  simp only [System.clients] at h
  cases hreq : S.requests i with
  | revokeAll v =>
    rw [hreq] at h
    cases h
    exact hbulk i hreq
  | _ => rw [hreq] at h; cases h

/-- A refresh whose token was found spent has begun, and does not rotate. -/
theorem Answers.reused {p : Phase} {token : Token TokenHash Uuid Date} (h : Answers p (some (.reused token))) :
    p ≠ .requested ∧ p.rotated = false := by
  obtain ⟨c, hc, -⟩ | rfl | rfl := h
  · cases p <;> first | (cases hc; done) | exact ⟨by simp, rfl⟩
  · exact ⟨by simp, rfl⟩
  · exact ⟨by simp, rfl⟩

/-- A refresh that raises the alarm is one whose token was found spent. -/
theorem Answers.raised {p : Phase} {o : Option (Outcome TokenHash Uuid Date)} (h : Answers p o)
    (hp : p.reusing.isSome = true ∨ p = .failed .refreshTokenReuseDetected) : ∃ token, o = some (.reused token) := by
  rcases hp with hc | rfl
  · obtain ⟨c, hc⟩ := Option.isSome_iff_exists.1 hc
    obtain ⟨token, ho, -⟩ := h.reusing hc
    exact ⟨token, ho⟩
  · match o, h with
    | some (.reused token), _ => exact ⟨token, rfl⟩

theorem Atomic.exchanged (hA : Atomic s a) (hI : Clients.Inv S.clients a) {j : ι} {e : SessionEntity}
    (h : a.outcome j = some (.exchanged e.token)) : Exchanged S s e := by
  obtain ⟨r, hreq, hh⟩ := demand_exchange (hI.justified j _ h).1
  have hrot := hA.outcome j
  rw [h] at hrot
  exact ⟨j, r, hreq, hh, hrot⟩

theorem Atomic.replayed (hA : Atomic s a) (hI : Clients.Inv S.clients a) (h : Clients.Replayed a userId) :
    Replayed S s userId := by
  obtain ⟨token, i, j, rfl, hi, hj⟩ := h
  obtain ⟨hdemand, hspent⟩ := hI.justified i _ hi
  obtain ⟨e, he, rfl, -⟩ := (hA.spent token).1 hspent
  obtain ⟨r, hreq, hh⟩ := demand_exchange hdemand
  have hreused := hA.outcome i
  rw [hi] at hreused
  exact ⟨e, he, rfl, hA.exchanged hI hj, i, r, hreq, hh, hreused.reused⟩

theorem Atomic.alarm (hA : Atomic s a) (hI : Clients.Inv S.clients a) (hinv : Inv S s) (h : Raised S s userId) :
    ∃ i, (a.outcome i).bind (·.alarm) = some userId := by
  obtain ⟨i, r, hreq, hphase, e, he, hh, rfl⟩ := h
  obtain ⟨token, ho⟩ := (hA.outcome i).raised hphase
  obtain ⟨hdemand, hspent⟩ := hI.justified i _ ho
  obtain ⟨e', he', rfl, -⟩ := (hA.spent token).1 hspent
  obtain ⟨r', hreq', hh'⟩ := demand_exchange hdemand
  obtain rfl : r = r' := Request.refresh.inj (hreq.symm.trans hreq')
  obtain rfl := hinv.hash_inj he he' (hh.trans hh')
  exact ⟨i, Clients.alarm_eq.2 ⟨_, ho, rfl⟩⟩

/-- A login of the user. -/
def Request.logsIn (userId : Uuid) : Request → Bool
  | .login l => l.userId = userId
  | _ => false

/-- The logins of the user that have stored their sessions. -/
def System.loggedIn [Fintype ι] (S : System ι) (s : State ι) (userId : Uuid) : ℕ :=
  (Finset.univ.filter fun i => (S.requests i).logsIn userId = true ∧ s.phase i = .loggedIn).card

/-- The un-revoked sessions of the user. -/
def liveSessions (sessions : List SessionEntity) (userId : Uuid) : List SessionEntity :=
  sessions.filter fun e => e.userId = userId && e.revokedAt.isNone

/-- The live tokens of the user are those of the un-revoked sessions. -/
theorem Atomic.card_live (hA : Atomic s a) (hinv : Inv S s) (userId : Uuid) :
    (Clients.liveOf a userId).card = (liveSessions s.sessions userId).length := by
  have hsame : Clients.liveOf a userId = ((liveSessions s.sessions userId).map (·.token)).toFinset := by
    ext token
    simp only [Clients.liveOf, Finset.mem_filter, hA.live, List.mem_toFinset, List.mem_map, liveSessions,
      List.mem_filter, Bool.and_eq_true, decide_eq_true_eq, Option.isNone_iff_eq_none]
    constructor
    · rintro ⟨⟨e, he, rfl, hun⟩, hu⟩
      exact ⟨e, ⟨he, hu, hun⟩, rfl⟩
    · rintro ⟨e, ⟨he, hu, hun⟩, rfl⟩
      exact ⟨⟨e, he, rfl, hun⟩, hu⟩
  have hnodup : ((liveSessions s.sessions userId).map (·.token)).Nodup := by
    refine List.Nodup.of_map Token.key ?_
    rw [List.map_map]
    exact hinv.hashes.sublist (List.filter_sublist.map _)
  rw [hsame, List.toFinset_card_of_nodup hnodup, List.length_map]

/-- The first tokens of the user are those of the logins. -/
theorem Atomic.card_issued [Fintype ι] (hA : Atomic s a) (hI : Clients.Inv S.clients a) (userId : Uuid) :
    Clients.issuedTo a userId = S.loggedIn s userId := by
  rw [System.loggedIn, Finset.card_filter, Clients.issuedTo]
  refine Finset.sum_congr rfl fun i _ => ?_
  have hanswer := hA.outcome i
  cases ho : a.outcome i with
  | none =>
    rw [ho] at hanswer
    have hphase : s.phase i ≠ .loggedIn := fun h => by rw [h] at hanswer; cases hanswer
    simp [hphase]
  | some o =>
    rw [ho] at hanswer
    cases o with
    | issued token =>
      obtain ⟨l, hreq, hu⟩ := demand_issue (hI.justified i _ ho)
      have hphase : s.phase i = .loggedIn := hanswer
      simp [hphase, hreq, Request.logsIn, Outcome.first, hu]
    | exchanged token | unknown | expired token | reused token =>
      have hphase : s.phase i ≠ .loggedIn := fun h => by
        rw [h] at hanswer
        simp [Answers, Phase.rotated, Phase.reusing] at hanswer
      simp [hphase, Outcome.first]

variable [Fintype ι] [DecidableEq ι]

/-- The atomic store of a run. -/
theorem linearized (S : System ι) {as : List (ι × Event)} (h : exec S.step (S.start []) as = some s) :
    ∃ cs a, exec (S.clients.step Date.le) Store.empty cs = some a ∧ Linearized S a s :=
  linearized_step.run (linearized_start S) h

/-- **No false alarm.** However the requests of all users interleave, with no `revokeAllByUserId` of the user but
those of the reuse branch: a refresh takes a token of the user for reused, and a session of theirs is
revoked that was not exchanged, only after a token of that same user was exchanged by one refresh and
presented to another. -/
theorem no_false_alarm (S : System ι) {userId : Uuid} (hbulk : ∀ i, S.requests i ≠ .revokeAll userId)
    {as : List (ι × Event)} {s : State ι} (h : exec S.step (S.start []) as = some s) :
    (Raised S s userId → Replayed S s userId) ∧
      ∀ e ∈ s.sessions, e.userId = userId → e.revoked → Exchanged S s e ∨ Replayed S s userId := by
  obtain ⟨cs, a, ha, hL⟩ := linearized S h
  have hI := Clients.inv_run ha
  rcases Clients.quiet_or_replayed (demand_revoke hbulk) ha with hq | hr
  · constructor
    · intro hraised
      obtain ⟨i, halarm⟩ := hL.atomic.alarm hI hL.inv hraised
      exact absurd halarm (hq.alarm i)
    · intro e he hu hrev
      obtain ⟨j, hj⟩ := hq.spent e.token ((hL.atomic.spent _).2 ⟨e, he, rfl, hrev⟩) hu
      exact Or.inl (hL.atomic.exchanged hI hj)
  · have hreplayed := hL.atomic.replayed hI hr
    exact ⟨fun _ => hreplayed, fun _ _ _ _ => Or.inr hreplayed⟩

/-- Request 3 replays the token that request 1 exchanged. -/
theorem no_false_alarm_replay : ∃ s,
    exec replaySystem.step (replaySystem.start []) (rotateOnce ++ replay ++ revokeChain) = some s ∧
      Raised replaySystem s 7 ∧ Replayed replaySystem s 7 := by
  obtain ⟨s, hs, hphase, e, he, hh, huser⟩ : ∃ s,
      exec replaySystem.step (replaySystem.start []) (rotateOnce ++ replay ++ revokeChain) = some s ∧
      s.phase 3 = .failed .refreshTokenReuseDetected ∧
      ∃ e ∈ s.sessions, e.refreshTokenHash = 0 ∧ e.userId = 7 :=
    ⟨_, rfl, by decide, _, List.mem_cons_self, by decide, by decide⟩
  have hraised : Raised replaySystem s 7 := ⟨3, ⟨0, .millis 100⟩, rfl, Or.inr hphase, e, he, hh, huser⟩
  exact ⟨s, hs, hraised, (no_false_alarm replaySystem (by decide) hs).1 hraised⟩

/-- **Rotations neither add sessions nor lose any.** In every state of every run a user has at most as
many un-revoked sessions as logins that stored one; and exactly as many, unless a token of theirs was
exchanged by one refresh and presented to another, or there are `revokeAllByUserId` of the user outside
the reuse branch. -/
theorem live_sessions (S : System ι) (userId : Uuid) {as : List (ι × Event)} {s : State ι}
    (h : exec S.step (S.start []) as = some s) :
    (liveSessions s.sessions userId).length ≤ S.loggedIn s userId ∧
      ((∀ i, S.requests i ≠ .revokeAll userId) → ¬ Replayed S s userId →
        (liveSessions s.sessions userId).length = S.loggedIn s userId) := by
  obtain ⟨cs, a, ha, hL⟩ := linearized S h
  have hI := Clients.inv_run ha
  obtain ⟨hle, heq⟩ := Clients.live_le_issued userId ha
  rw [hL.atomic.card_live hL.inv, hL.atomic.card_issued hI] at hle heq
  refine ⟨hle, fun hbulk hnot => ?_⟩
  have hquiet : Clients.Quiet a userId :=
    (Clients.quiet_or_replayed (demand_revoke hbulk) ha).resolve_right fun hr => hnot (hL.atomic.replayed hI hr)
  exact heq fun i => ⟨demand_revoke hbulk i, hquiet.alarm i⟩

/-- After the login and two rotations of its chain user 7 has one session. -/
theorem live_sessions_rotated : ∃ s,
    exec replaySystem.step (replaySystem.start []) (rotateOnce ++ rotateNext ++ [(2, .commit)]) = some s ∧
      s.sessions.length = 3 ∧ (liveSessions s.sessions 7).length = 1 := by
  obtain ⟨s, hs, hlength, hlogins, hphases⟩ : ∃ s,
      exec replaySystem.step (replaySystem.start []) (rotateOnce ++ rotateNext ++ [(2, .commit)]) = some s ∧
      s.sessions.length = 3 ∧ replaySystem.loggedIn s 7 = 1 ∧
      ∀ i, i = 0 ∨ s.phase i = .requested ∨ (s.phase i).rotated = true := ⟨_, rfl, by decide, by decide, by decide⟩
  have hbulk : ∀ i, replaySystem.requests i ≠ .revokeAll 7 := by decide
  have hnot : ¬ Replayed replaySystem s 7 := by
    rintro ⟨e, -, -, -, i, r, hr, -, hbegun, hfailed⟩
    rcases hphases i with rfl | hrequested | hrotated
    · cases hr
    · exact hbegun hrequested
    · rw [hrotated] at hfailed
      cases hfailed
  exact ⟨s, hs, hlength, hlogins ▸ (live_sessions replaySystem 7 hs).2 hbulk hnot⟩

end AccountApi
