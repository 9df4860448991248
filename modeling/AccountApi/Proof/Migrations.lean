import AccountApi.Spec.Migrations

/-!
# The session migrations lose no account

Each of the four statement lists of the session migrations is followed on the schema, which
is one computation for each level, and on the rows, which may be any.

* `AtLevel.log_out`: what is left to show of one list.
* `session_migrations_reversible`: **the session migrations succeed in both directions on
  every content, and each direction undoes the other on the schema**.
-/

namespace AccountApi

open Transition Sql

variable {n : ℕ} {m : Migration} {qs : List Statement} {s : Schema} {db db' : Sql.Database}

/-- All migrations succeed, one after the other, so that every level exists. -/
theorem schemaAt_some (n : ℕ) : ∃ s, schemaAt n = some s := by
  have hall : (exec Statement.schemaStep [] (migrations.flatMap (·.up))).isSome := by decide +kernel
  obtain ⟨s, hs⟩ := Option.isSome_iff_exists.1 hall
  have hsplit : migrations.flatMap (·.up) =
      (migrations.take n).flatMap (·.up) ++ (migrations.drop n).flatMap (·.up) := by
    rw [← List.flatMap_append, List.take_append_drop]
  rw [hsplit] at hs
  obtain ⟨u, hu, -⟩ := exec_append.1 hs
  exact ⟨u, hu⟩

/-- A level is reached from the one before. -/
theorem AtLevel.schema_up (h : AtLevel n db) (hm : migrations[n]? = some m) :
    ∃ s, schemaAt (n + 1) = some s ∧ exec Statement.schemaStep db.schema m.up = some s := by
  obtain ⟨s, hs⟩ := schemaAt_some (n + 1)
  refine ⟨s, hs, ?_⟩
  have htake : (migrations.take (n + 1)).flatMap (·.up) = (migrations.take n).flatMap (·.up) ++ m.up := by
    rw [List.take_add_one, hm]
    simp
  unfold schemaAt at hs
  rw [htake] at hs
  obtain ⟨u, hu, hup⟩ := exec_append.1 hs
  have hschema : some u = some db.schema := hu.symm.trans h.schema
  exact Option.some.inj hschema ▸ hup

/-- The migrations after the first. -/
theorem session_migration (hn : 1 ≤ n) (hm : migrations[n]? = some m) :
    n = 1 ∧ m = splitUserAndAuthSession ∨ n = 2 ∧ m = sessionChainRotation := by
  obtain ⟨hlt, hm⟩ := List.getElem?_eq_some_iff.1 hm
  have hcases : n = 1 ∨ n = 2 := by
    simp only [migrations, List.length_cons, List.length_nil] at hlt
    omega
  rcases hcases with rfl | rfl
  · exact Or.inl ⟨rfl, hm.symm⟩
  · exact Or.inr ⟨rfl, hm.symm⟩

/-- **`down` undoes `up` on the schema.** -/
theorem schema_down (hn : 1 ≤ n) (hm : migrations[n]? = some m) :
    (schemaAt (n + 1)).bind (fun s => exec Statement.schemaStep s m.down) = schemaAt n := by
  rcases session_migration hn hm with ⟨rfl, rfl⟩ | ⟨rfl, rfl⟩
  · decide +kernel
  · decide +kernel

/-- A user without the refresh-token pair. -/
def forgetToken (r : Row) : Row :=
  Function.update (Function.update r "refresh_token_hash" .null) "refresh_token_expires_at" .null

theorem forgetToken_of_notMem {r : Row} {x : String} (hx : x ∉ refreshTokenPair) : forgetToken r x = r x := by
  simp only [refreshTokenPair, List.mem_cons, List.not_mem_nil, or_false, not_or] at hx
  unfold forgetToken
  rw [Function.update_of_ne hx.2, Function.update_of_ne hx.1]

theorem forgetToken_hash (r : Row) : forgetToken r "refresh_token_hash" = .null := by
  unfold forgetToken
  rw [Function.update_of_ne (by decide), Function.update_self]

/-- The sessions go, the users become `f` of what they were, and the rest stays. -/
def logOut (f : Row → Row) (rows : String → List Row) (t : String) : List Row :=
  if t = "session" then [] else if t = "user" then (rows t).map f else rows t

theorem rows_split (hqs : qs = splitUserAndAuthSession.up ∨ qs = splitUserAndAuthSession.down)
    (rows : String → List Row) : rowsAfter qs rows = logOut forgetToken rows := by
  funext t
  rcases hqs with rfl | rfl <;>
    by_cases hsession : t = "session" <;> by_cases huser : t = "user" <;>
    simp [rowsAfter, splitUserAndAuthSession, Statement.rowsStep, logOut, hsession, huser, forgetToken,
      Function.comp_def]

theorem rows_chain (hqs : qs = sessionChainRotation.up ∨ qs = sessionChainRotation.down)
    (rows : String → List Row) : rowsAfter qs rows = logOut id rows := by
  funext t
  rcases hqs with rfl | rfl <;>
    by_cases hsession : t = "session" <;>
    simp [rowsAfter, sessionChainRotation, Statement.rowsStep, logOut, hsession]

/-- **Every check of the session migrations succeeds**, on any rows. -/
theorem checks_split (hqs : qs = splitUserAndAuthSession.up ∨ qs = splitUserAndAuthSession.down)
    (rows : String → List Row) : Checks qs rows := by
  rcases hqs with rfl | rfl
  · simp [splitUserAndAuthSession, Checks, Statement.Check]
  · -- the users get NULL for their hash, which is unique for that
    simp [splitUserAndAuthSession, Checks, Statement.Check, Statement.rowsStep, Constraint.Holds,
      Constraint.HasNulls, List.pairwise_map, List.pairwise_of_forall]

theorem checks_chain (hqs : qs = sessionChainRotation.up ∨ qs = sessionChainRotation.down)
    (rows : String → List Row) : Checks qs rows := by
  -- no session is left when the constraint is added
  rcases hqs with rfl | rfl <;>
    simp [sessionChainRotation, Checks, Statement.Check, Statement.rowsStep, Constraint.holds_of_empty]

/-- At the level, no other table has a column for the hash. -/
def HashesIn (n : ℕ) (holder : String) : Prop :=
  ∀ s, schemaAt n = some s → ∀ T ∈ s, T.HasColumn "refresh_token_hash" → T.name = holder

/-- `HashesIn`, by going through the tables. -/
theorem hashesIn_of_all {holder : String}
    (h : (schemaAt n).all fun s => ∀ T ∈ s, T.HasColumn "refresh_token_hash" → T.name = holder) :
    HashesIn n holder := by
  intro s hs
  simpa [hs] using h

theorem hashesIn_user : HashesIn 1 "user" := hashesIn_of_all (by decide +kernel)

theorem hashesIn_session : HashesIn 2 "session" ∧ HashesIn 3 "session" :=
  ⟨hashesIn_of_all (by decide +kernel), hashesIn_of_all (by decide +kernel)⟩

theorem AtLevel.hash_in {holder t : String} {r : Row} (h : AtLevel n db)
    (hholder : HashesIn n holder)
    (hr : r ∈ db.rows t) (hhash : r "refresh_token_hash" ≠ .null) : t = holder := by
  cases hT : db.schema.table t with
  | none =>
    rw [h.valid.outside t hT] at hr
    cases hr
  | some T =>
    obtain ⟨hmem, rfl⟩ := Schema.table_some hT
    refine hholder db.schema h.schema T hmem ?_
    by_contra hcolumn
    exact hhash ((h.valid.admits T hmem r hr).outside _ hcolumn)

/-- Where the table with the hashes stores none, none is stored. -/
theorem AtLevel.no_hash {holder : String} (h : AtLevel n db)
    (hholder : HashesIn n holder)
    (hnone : ∀ r ∈ db.rows holder, r "refresh_token_hash" = .null) (hash : String) : ¬ StoresHash db hash := by
  rintro ⟨t, r, hr, heq⟩
  have hhash : r "refresh_token_hash" ≠ .null := by simp [heq]
  exact hhash (hnone r (h.hash_in hholder hr hhash ▸ hr))

/-- **Statements that log everyone out** keep the accounts. -/
theorem keepsAccounts_of_logOut {f : Row → Row} (hf : ∀ r x, x ∉ refreshTokenPair → f r x = r x)
    (hrows : db'.rows = logOut f db.rows) (hhash : ∀ hash, ¬ StoresHash db' hash) : KeepsAccounts db db' := by
  have hothers : ∀ t, t ≠ "session" → t ≠ "user" → db'.rows t = db.rows t := by
    intro t hsession huser
    rw [hrows]
    simp [logOut, hsession, huser]
  refine ⟨hothers "app" (by decide) (by decide), hothers "tenant" (by decide) (by decide),
    hothers "tenant_membership" (by decide) (by decide), ?_, fun hash _ => hhash hash⟩
  have huser : db'.rows "user" = (db.rows "user").map f := by
    rw [hrows]
    simp [logOut]
  rw [huser, List.forall₂_map_right_iff, List.forall₂_same]
  exact fun r _ x hx => hf r x hx

/-- What is left to show of statements that log everyone out: the schema, and that no hash stays. -/
theorem AtLevel.log_out {k : ℕ} {holder : String} {f : Row → Row} (h : AtLevel n db)
    (hs : schemaAt k = some s) (hschema : exec Statement.schemaStep db.schema qs = some s)
    (hchecks : Checks qs db.rows) (hrows : rowsAfter qs db.rows = logOut f db.rows)
    (hf : ∀ r x, x ∉ refreshTokenPair → f r x = r x)
    (hholder : HashesIn k holder)
    (hnone : ∀ r ∈ logOut f db.rows holder, r "refresh_token_hash" = .null) : ∃ db', Migrated qs k db db' := by
  have hran := exec_of_checks hschema hchecks
  have hvalid : Database.Valid ⟨s, rowsAfter qs db.rows⟩ := by
    refine invariant ?_ h.valid hran
    exact fun db q db' hv hstep => valid_step hv hstep
  have hlevel : AtLevel k ⟨s, rowsAfter qs db.rows⟩ := ⟨hs, hvalid⟩
  refine ⟨_, hran, hlevel, keepsAccounts_of_logOut hf hrows (hlevel.no_hash hholder ?_)⟩
  exact hrows ▸ hnone

/-- **`up` succeeds** on every content of its level. -/
theorem AtLevel.up (h : AtLevel n db) (hn : 1 ≤ n) (hm : migrations[n]? = some m) :
    ∃ db', Migrated m.up (n + 1) db db' := by
  obtain ⟨s, hs, hschema⟩ := h.schema_up hm
  rcases session_migration hn hm with ⟨rfl, rfl⟩ | ⟨rfl, rfl⟩
  · refine h.log_out hs hschema (checks_split (Or.inl rfl) _) (rows_split (Or.inl rfl) _)
      (fun r x => forgetToken_of_notMem) hashesIn_session.1 ?_
    simp [logOut]
  · refine h.log_out hs hschema (checks_chain (Or.inl rfl) _) (rows_chain (Or.inl rfl) _)
      (fun r x _ => rfl) hashesIn_session.2 ?_
    simp [logOut]

/-- **`down` succeeds** on every content of the level above. -/
theorem AtLevel.down (h : AtLevel (n + 1) db) (hn : 1 ≤ n) (hm : migrations[n]? = some m) :
    ∃ db', Migrated m.down n db db' := by
  have hdown := schema_down hn hm
  rw [h.schema, Option.bind_some] at hdown
  obtain ⟨s, hs⟩ := schemaAt_some n
  rcases session_migration hn hm with ⟨rfl, rfl⟩ | ⟨rfl, rfl⟩
  · refine h.log_out hs (hdown.trans hs) (checks_split (Or.inr rfl) _)
      (rows_split (Or.inr rfl) _) (fun r x => forgetToken_of_notMem) hashesIn_user fun r hr => ?_
    -- at this level the users have the column again, and nothing in it
    simp only [logOut, if_true, String.reduceEq, if_false] at hr
    obtain ⟨r, -, rfl⟩ := List.mem_map.1 hr
    exact forgetToken_hash r
  · refine h.log_out hs (hdown.trans hs) (checks_chain (Or.inr rfl) _)
      (rows_chain (Or.inr rfl) _) (fun r x _ => rfl) hashesIn_session.1 ?_
    simp [logOut]

/-- Two contents of one level have one schema. -/
theorem AtLevel.schema_eq (h : AtLevel n db) (h' : AtLevel n db') : db'.schema = db.schema :=
  Option.some.inj (h'.schema.symm.trans h.schema)

/-- **The session migrations are safe on all data and reversible**: both can be undone one after
the other on every content, and for each of them, on every content of the level, `up` then
`down` and `down` then `up` succeed and restore the schema, and each step keeps all accounts
and leaves no hash of a refresh token that was there before. -/
theorem session_migrations_reversible :
    (∀ db, AtLevel 3 db → ∃ db₂ db₁, Migrated sessionChainRotation.down 2 db db₂ ∧
      Migrated splitUserAndAuthSession.down 1 db₂ db₁) ∧
    ∀ n m, 1 ≤ n → migrations[n]? = some m →
      (∀ db, AtLevel n db → ∃ db' db'', Migrated m.up (n + 1) db db' ∧ Migrated m.down n db' db'' ∧
        db''.schema = db.schema) ∧
      (∀ db, AtLevel (n + 1) db → ∃ db' db'', Migrated m.down n db db' ∧ Migrated m.up (n + 1) db' db'' ∧
        db''.schema = db.schema) := by
  refine ⟨fun db h => ?_, fun n m hn hm => ⟨fun db h => ?_, fun db h => ?_⟩⟩
  · obtain ⟨db₂, h₂⟩ := h.down (n := 2) (by decide) rfl
    obtain ⟨db₁, h₁⟩ := h₂.level.down (n := 1) (by decide) rfl
    exact ⟨db₂, db₁, h₂, h₁⟩
  · obtain ⟨db', h'⟩ := h.up hn hm
    obtain ⟨db'', h''⟩ := h'.level.down hn hm
    exact ⟨db', db'', h', h'', h.schema_eq h''.level⟩
  · obtain ⟨db', h'⟩ := h.down hn hm
    obtain ⟨db'', h''⟩ := h'.level.up hn hm
    exact ⟨db', db'', h', h'', h.schema_eq h''.level⟩

/-- One user, with a session that another one has replaced. -/
def chainedSessions : Content where
  schema := (schemaAt 3).getD []
  tables := [
    ("app", [[("id", .uuid 1), ("slug", .text "gardenia"), ("name", .text "Gardenia"),
      ("created_at", .timestamp 0), ("updated_at", .timestamp 0)]]),
    ("user", [[("id", .uuid 2), ("external_id", .text "jane"), ("email", .text "jane@example.com"),
      ("platform_admin", .bool false), ("created_at", .timestamp 0), ("updated_at", .timestamp 0)]]),
    ("session", [
      [("id", .uuid 3), ("user_id", .uuid 2), ("refresh_token_hash", .text "first"),
        ("refresh_token_expires_at", .timestamp 9), ("revoked_at", .timestamp 1),
        ("replaced_by_session_id", .uuid 4), ("created_at", .timestamp 0), ("updated_at", .timestamp 1)],
      [("id", .uuid 4), ("user_id", .uuid 2), ("refresh_token_hash", .text "second"),
        ("refresh_token_expires_at", .timestamp 9), ("created_at", .timestamp 1),
        ("updated_at", .timestamp 1)]])]

theorem chainedSessions_level : AtLevel 3 chainedSessions.database :=
  ⟨by decide +kernel, Content.Sound.valid (by decide +kernel)⟩

theorem chainedSessions_reversible :
    (∃ db₂ db₁, Migrated sessionChainRotation.down 2 chainedSessions.database db₂ ∧
      Migrated splitUserAndAuthSession.down 1 db₂ db₁) ∧
    ∃ db' db'', Migrated sessionChainRotation.down 2 chainedSessions.database db' ∧
      Migrated sessionChainRotation.up 3 db' db'' ∧ db''.schema = chainedSessions.database.schema :=
  ⟨session_migrations_reversible.1 chainedSessions.database chainedSessions_level,
    (session_migrations_reversible.2 2 sessionChainRotation (by decide) rfl).2 chainedSessions.database
      chainedSessions_level⟩

end AccountApi
