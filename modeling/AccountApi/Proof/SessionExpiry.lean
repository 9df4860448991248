import AccountApi.Spec.Config
import AccountApi.Proof.Builders

/-!
# Sessions that expire when they should

`REFRESH_TOKEN_TTL_DAYS` goes from the environment into `expiresAt` without a check: the
schema does not mention it (`validateEnv_ttl`). What is no number gives an invalid date,
which the column of the table refuses; a number of days that is not positive is stored.

* `newSession_expiresAt`, `newSession_built`: what a login or a refresh stores.
* `usable_sessions_iff`: **the sessions stored at a time are usable from then to their
  expiry exactly when the configured days, if they lead to a date that can be stored, are
  positive**.
-/

namespace AccountApi

open BuilderKit

variable {k : BuilderKit} {env : ProcessEnv} {time : ℤ} {s : SessionAggregate}

section
variable (env : ProcessEnv) (ttl : Option String) {path : String}

theorem nonEmptyIssues_ttl (h : path ≠ "REFRESH_TOKEN_TTL_DAYS") (trims : Bool) :
    nonEmptyIssues (Function.update env "REFRESH_TOKEN_TTL_DAYS" ttl) path trims =
      nonEmptyIssues env path trims := by
  rw [nonEmptyIssues, Function.update_of_ne h, nonEmptyIssues]

theorem optionalIssues_ttl (h : path ≠ "REFRESH_TOKEN_TTL_DAYS") (typed ok : String → Bool) :
    optionalIssues (Function.update env "REFRESH_TOKEN_TTL_DAYS" ttl) path typed ok =
      optionalIssues env path typed ok := by
  rw [optionalIssues, Function.update_of_ne h, optionalIssues]

theorem isBlank_ttl (h : path ≠ "REFRESH_TOKEN_TTL_DAYS") :
    isBlank (Function.update env "REFRESH_TOKEN_TTL_DAYS" ttl) path = isBlank env path := by
  rw [isBlank, Function.update_of_ne h, isBlank]

theorem baseEnvIssues_ttl (z : Zod) :
    baseEnvIssues z (Function.update env "REFRESH_TOKEN_TTL_DAYS" ttl) = baseEnvIssues z env := by
  unfold baseEnvIssues fieldIssues refinementIssues enumIssues
  simp (disch := decide) only [nonEmptyIssues_ttl, optionalIssues_ttl, isBlank_ttl, Function.update_of_ne]

/-- **The schema does not look at the variable**: whether an environment boots does not depend on it. -/
theorem validateEnv_ttl (z : Zod) :
    (validateEnv z (Function.update env "REFRESH_TOKEN_TTL_DAYS" ttl)).isOk = (validateEnv z env).isOk := by
  have hcors : validateProductionCorsOrigins (Function.update env "REFRESH_TOKEN_TTL_DAYS" ttl) =
      validateProductionCorsOrigins env := by
    simp (disch := decide) only [validateProductionCorsOrigins, resolveCorsOrigins, Function.update_of_ne]
  have hnode : Function.update env "REFRESH_TOKEN_TTL_DAYS" ttl "NODE_ENV" = env "NODE_ENV" :=
    Function.update_of_ne (by decide) _ _
  unfold validateEnv
  rw [baseEnvIssues_ttl, hcors, hnode]
  generalize (if env "NODE_ENV" = some "production" then validateProductionCorsOrigins env else []) = errors
  dsimp only
  split
  · rfl
  · split <;> rfl

end

/-- What the library does with dates, and that it takes some id and some hash. -/
structure BuilderKit.Working (k : BuilderKit) : Prop extends lawful : BuilderKit.Lawful k where
  dateValue_valid : ∀ ms, -maxTime ≤ ms → ms ≤ maxTime → k.dateValue (.millis ms) = some (.millis ms)
  dateValue_invalid : ∀ d, k.dateValue .invalid = some d → d = .invalid
  uuids : ∃ id, k.uuidValue id ≠ none
  hashes : ∃ hash, k.refreshTokenHashValue hash ≠ none

/-- A login or a refresh that reads the clock at `time` builds `s`, to store it. -/
inductive Builds (k : BuilderKit) (env : ProcessEnv) (time : ℤ) (s : SessionAggregate) : Prop
  | login (id userId hash now clock b) :
      ((CallSite.login ⟨id, hash, refreshExpiresAt env time⟩ userId now).run k clock b).1 =
        .ok (.session s) → Builds k env time s
  | refresh (id userId hash now clock b) :
      ((CallSite.refresh ⟨id, hash, refreshExpiresAt env time⟩ userId now).run k clock b).1 =
        .ok (.session s) → Builds k env time s

/-- A login or a refresh stores `s`: it builds it, and the column takes its expiry. -/
structure Stores (k : BuilderKit) (env : ProcessEnv) (time : ℤ) (s : SessionAggregate) : Prop where
  builds : Builds k env time s
  taken : s.expiresAt.isTimestamp = true

/-- The session expires at a valid instant after `time`: not before it, and from then on. -/
def UsableFrom (s : SessionAggregate) (time : ℤ) : Prop :=
  ∃ expiry, s.expiresAt = .millis expiry ∧ time < expiry ∧ expiry ≤ maxTime ∧
    (∀ now, time ≤ now → now < expiry → s.isExpired (.millis now) = false) ∧
    ∀ now, expiry ≤ now → s.isExpired (.millis now) = true

theorem bind_ok {ε α β : Type} {x : Except ε α} {f : α → Except ε β} {v : β} :
    (x >>= f) = .ok v ↔ ∃ a, x = .ok a ∧ f a = .ok v := by
  cases x with
  | error e => exact ⟨nofun, fun ⟨_, h, _⟩ => by cases h⟩
  | ok a => exact ⟨fun h => ⟨a, rfl, h⟩, fun ⟨_, h, hf⟩ => by cases h; exact hf⟩

theorem valueObject_ok {α : Type} {o : Option α} {v : α} (h : valueObject o = .ok v) : o = some v := by
  cases o with
  | none => cases h
  | some w => cases h; rfl

/-- The expiry of a session that is built is the one it was given, as the library keeps it. -/
theorem newSession_expiresAt {clock now : Date} {n : NewSession} {userId : Uuid} {b : SessionBuilder}
    (h : (SessionBuilder.newSession k clock n userId now b).1 = .ok s) :
    k.dateValue n.expiresAt = some s.expiresAt := by
  simp only [SessionBuilder.newSession, SessionBuilder.build, required_some, ok_bind, bind_ok] at h
  obtain ⟨_, -, _, -, _, -, _, -, expiry, hexpiry, _, -, _, -, _, -, _, -, h⟩ := h
  cases h
  exact valueObject_ok hexpiry

/-- A session whose values the library takes is built. -/
theorem newSession_built (hk : k.Lawful) {n : NewSession} {userId : Uuid} {now e : Date}
    (hid : IsValue k.uuidValue n.id) (huser : IsValue k.uuidValue userId)
    (hhash : IsValue k.refreshTokenHashValue n.refreshTokenHash) (hnow : IsValue k.dateValue now)
    (he : k.dateValue n.expiresAt = some e) (clock : Date) (b : SessionBuilder) :
    (SessionBuilder.newSession k clock n userId now b).1 = .ok (({ n with expiresAt := e }).build userId now) := by
  have hid' := hid.again hk.uuidValue_again
  have huser' := huser.again hk.uuidValue_again
  have hhash' := hhash.again hk.refreshTokenHashValue_again
  have hnow' := hnow.again hk.dateValue_again
  simp only [SessionBuilder.newSession, SessionBuilder.build, hk.validate_set, required_some, ok_bind,
    Option.bind_some, Option.getD_some, valueObject_some, optionalObject, hid', huser', hhash', hnow', he]
  rfl

/-- A session has the configured expiry. -/
theorem Builds.expiresAt (h : Builds k env time s) :
    k.dateValue (refreshExpiresAt env time) = some s.expiresAt := by
  have hbuilt : ∀ {r : Except BuilderError SessionAggregate}, r.map Built.session = .ok (.session s) →
      r = .ok s := by
    intro r hr
    cases r with
    | error e => cases hr
    | ok s' => cases hr; rfl
  cases h with
  | login _ _ _ _ _ b h => exact newSession_expiresAt (hbuilt h)
  | refresh _ _ _ _ _ b h => exact newSession_expiresAt (hbuilt h)

/-- Something is stored when the library and the column take the expiry. -/
theorem stores_of_dateValue (env : ProcessEnv) (time : Int) (hk : k.Working) {e : Date}
    (h : k.dateValue (refreshExpiresAt env time) = some e) (htaken : e.isTimestamp = true) :
    ∃ s, Stores k env time s ∧ s.expiresAt = e := by
  obtain ⟨id, hid⟩ := hk.uuids
  obtain ⟨id', hid'⟩ := Option.ne_none_iff_exists'.1 hid
  obtain ⟨hash, hhash⟩ := hk.hashes
  obtain ⟨hash', hhash'⟩ := Option.ne_none_iff_exists'.1 hhash
  have hzero : k.dateValue (.millis 0) = some (.millis 0) :=
    hk.dateValue_valid 0 (by decide) (by decide)
  have hbuilt := newSession_built hk.lawful (n := ⟨id', hash', refreshExpiresAt env time⟩)
    ⟨id, hid'⟩ ⟨id, hid'⟩ ⟨hash, hhash'⟩ ⟨.millis 0, hzero⟩ h (.millis 0) Builders.new.session
  exact ⟨_, ⟨.login id' id' hash' (.millis 0) (.millis 0) Builders.new
    (congrArg (Except.map Built.session) hbuilt), htaken⟩, rfl⟩

/-- Where the expiry falls. -/
theorem refreshExpiresAt_eq (env : ProcessEnv) (time : ℤ) :
    (∃ days, refreshTokenTtlDays env = some days ∧ -maxTime ≤ time + days * 86400000 ∧
      time + days * 86400000 ≤ maxTime ∧ refreshExpiresAt env time = .millis (time + days * 86400000)) ∨
    ((∀ days, refreshTokenTtlDays env = some days →
      time + days * 86400000 < -maxTime ∨ maxTime < time + days * 86400000) ∧
      refreshExpiresAt env time = .invalid) := by
  unfold refreshExpiresAt
  cases h : refreshTokenTtlDays env with
  | none => exact Or.inr ⟨nofun, rfl⟩
  | some days =>
    have hmul : time + days * 24 * 60 * 60 * 1000 = time + days * 86400000 := by omega
    simp only [Option.map_some, Date.new, hmul]
    by_cases hrange : -maxTime ≤ time + days * 86400000 ∧ time + days * 86400000 ≤ maxTime
    · exact Or.inl ⟨days, rfl, hrange.1, hrange.2, if_pos hrange⟩
    · refine Or.inr ⟨fun d hd => ?_, if_neg hrange⟩
      cases hd
      omega

theorem usableFrom_millis {e : ℤ} (he : s.expiresAt = .millis e) (hmax : e ≤ maxTime) :
    UsableFrom s time ↔ time < e := by
  constructor
  · rintro ⟨e', he', hlt, -⟩
    cases he.symm.trans he'
    exact hlt
  · intro hlt
    have hexpired : ∀ now, s.isExpired (.millis now) = decide (e ≤ now) := by
      intro now
      rw [SessionAggregate.isExpired, he]
      rfl
    refine ⟨e, he, hlt, hmax, fun now _ hnow => ?_, fun now hnow => ?_⟩
    · rw [hexpired]
      exact decide_eq_false (by omega)
    · rw [hexpired]
      exact decide_eq_true hnow

/-- A session that is stored expires the configured days after `time`, within the range of a `Date`. -/
theorem Stores.expiresAt (hk : k.Working) (h : Stores k env time s) :
    ∃ days, refreshTokenTtlDays env = some days ∧ s.expiresAt = .millis (time + days * 86400000) ∧
      minTimestamp ≤ time + days * 86400000 ∧ time + days * 86400000 ≤ maxTime := by
  have hbuilt := h.builds.expiresAt
  have htaken := h.taken
  rcases refreshExpiresAt_eq env time with ⟨days, hdays, hlow, hhigh, hexpiry⟩ | ⟨-, hexpiry⟩
  · rw [hexpiry, hk.dateValue_valid _ hlow hhigh] at hbuilt
    have he := (Option.some.inj hbuilt).symm
    rw [he] at htaken
    exact ⟨days, hdays, he, of_decide_eq_true htaken, hhigh⟩
  · -- an invalid date is refused, by the library or by the column
    rw [hexpiry] at hbuilt
    rw [hk.dateValue_invalid _ hbuilt] at htaken
    cases htaken

/-- **Usable sessions**: those that logins and refreshes at a time store can be used from then until
they expire, exactly when no number of days that is zero or negative is read from the variable, or one
that leads to no instant of the column. -/
theorem usable_sessions_iff (k : BuilderKit) (hk : k.Working) (env : ProcessEnv) (time : ℤ) :
    (∀ s, Stores k env time s → UsableFrom s time) ↔
      ∀ days, refreshTokenTtlDays env = some days → minTimestamp ≤ time + days * 86400000 →
        time + days * 86400000 ≤ maxTime → 0 < days := by
  constructor
  · intro hall days hdays hlow hhigh
    have hmin : -maxTime ≤ minTimestamp := by decide
    have hexpiry : refreshExpiresAt env time = .millis (time + days * 86400000) := by
      rcases refreshExpiresAt_eq env time with ⟨d, hd, -, -, hexpiry⟩ | ⟨hout, -⟩
      · obtain rfl := Option.some.inj (hdays.symm.trans hd)
        exact hexpiry
      · have := hout days hdays
        omega
    have hdate := hk.dateValue_valid (time + days * 86400000) (by omega) hhigh
    rw [← hexpiry] at hdate
    obtain ⟨s, hs, he⟩ := stores_of_dateValue env time hk hdate (by rw [hexpiry]; exact decide_eq_true hlow)
    have hlt := (usableFrom_millis (he.trans hexpiry) hhigh).1 (hall s hs)
    omega
  · intro hpos s hs
    obtain ⟨days, hdays, he, hlow, hhigh⟩ := hs.expiresAt hk
    have hdays' := hpos days hdays hlow hhigh
    exact (usableFrom_millis he hhigh).2 (by omega)

/-- An environment for development. -/
def developmentEnv (ttl : Option String) : ProcessEnv
  | "NODE_ENV" => some "development"
  | "DATABASE_HOST" => some "localhost"
  | "DATABASE_USERNAME" => some "postgres"
  | "DATABASE_PASSWORD" => some "secret"
  | "DATABASE_DATABASE" => some "account_db"
  | "REFRESH_TOKEN_TTL_DAYS" => ttl
  | _ => none

theorem BuilderKit.permissive_working : BuilderKit.permissive.Working where
  lawful := BuilderKit.permissive_lawful
  dateValue_valid _ _ _ := rfl
  dateValue_invalid _ h := (Option.some.inj h).symm
  uuids := ⟨0, nofun⟩
  hashes := ⟨0, nofun⟩

/-- Without the variable the sessions stored at the epoch can be used for thirty days. -/
theorem usable_sessions_default : ∃ s, Stores BuilderKit.permissive (developmentEnv none) 0 s ∧
    s.expiresAt = .millis 2592000000 ∧ UsableFrom s 0 := by
  obtain ⟨s, hs, he⟩ := stores_of_dateValue (developmentEnv none) 0 BuilderKit.permissive_working rfl (by decide)
  have hexpiry : refreshExpiresAt (developmentEnv none) 0 = .millis 2592000000 := by decide
  refine ⟨s, hs, he.trans hexpiry, ?_⟩
  have hdays : ∀ days, refreshTokenTtlDays (developmentEnv none) = some days → 0 < days := by
    intro days hdays
    have h30 : refreshTokenTtlDays (developmentEnv none) = some 30 := by decide
    rw [h30] at hdays
    cases hdays
    decide
  exact (usable_sessions_iff BuilderKit.permissive BuilderKit.permissive_working (developmentEnv none) 0).2
    (fun days h _ _ => hdays days h) s hs

/-- With `REFRESH_TOKEN_TTL_DAYS=0` the server boots, and a session is expired when it is stored. -/
theorem expired_when_stored :
    (validateEnv ⟨fun _ => true, fun _ => true, fun _ => true, fun _ => true⟩ (developmentEnv (some "0"))).isOk = true ∧
      ∃ s, Stores BuilderKit.permissive (developmentEnv (some "0")) 0 s ∧
        s.isExpired (.millis 0) = true ∧ ¬ UsableFrom s 0 := by
  refine ⟨by decide, ?_⟩
  obtain ⟨s, hs, he⟩ :=
    stores_of_dateValue (developmentEnv (some "0")) 0 BuilderKit.permissive_working rfl (by decide)
  have hzero : refreshExpiresAt (developmentEnv (some "0")) 0 = .millis 0 := by decide
  have hexpiry := he.trans hzero
  refine ⟨s, hs, ?_, ?_⟩
  · rw [SessionAggregate.isExpired, hexpiry]
    decide
  · rw [usableFrom_millis hexpiry (by decide)]
    omega

end AccountApi
