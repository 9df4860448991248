import AccountApi.Spec.Builders

/-!
# The environment, and what the configuration reads from it

`validateEnv` decides which environments boot; `authConfig` reads its variables as they
are. What zod decides about the shape of a string (a URL, a number in a range) is a
parameter.
-/

namespace AccountApi

/-- `process.env`: the variables that are set. -/
abbrev ProcessEnv := String → Option String

/-- `url()`, the type check of `z.coerce.number()`, and its `min(0).max(1)` and `positive()`. -/
structure Zod where
  isUrl : String → Bool
  isNumber : String → Bool
  inUnitInterval : String → Bool
  isPositive : String → Bool

/-- The path of an issue, and its message where the schema gives one. -/
structure EnvIssue where
  path : String
  message : Option String
  /-- The value has its type: zod goes on to the checks of the whole object. -/
  continues : Bool
  deriving DecidableEq, Repr

/-- `z.string()….min(1, '<path> must not be empty')`; `trims` for `.trim()`. -/
def nonEmptyIssues (env : ProcessEnv) (path : String) (trims : Bool) : List EnvIssue :=
  match env path with
  | none => [⟨path, none, false⟩]
  | some v =>
    if (if trims then JsString.trim v else v) = "" then [⟨path, some (path ++ " must not be empty"), true⟩]
    else []

/-- An optional variable whose value has to be of its type and to pass `ok`. -/
def optionalIssues (env : ProcessEnv) (path : String) (typed ok : String → Bool) : List EnvIssue :=
  match env path with
  | none => []
  | some v => if !typed v then [⟨path, none, false⟩] else if !ok v then [⟨path, none, true⟩] else []

/-- `z.enum(values).optional()`. -/
def enumIssues (env : ProcessEnv) (path : String) (values : List String) : List EnvIssue :=
  optionalIssues env path (fun v => values.contains v) fun _ => true

/-- `!env.NAME?.trim()`. -/
def isBlank (env : ProcessEnv) (path : String) : Bool := (env path).all fun v => JsString.trim v = ""

/-- The fields of `baseEnvSchema`. Those that are left out are optional strings, which every value is. -/
def fieldIssues (z : Zod) (env : ProcessEnv) : List EnvIssue :=
  nonEmptyIssues env "DATABASE_HOST" true ++
  nonEmptyIssues env "DATABASE_USERNAME" true ++
  nonEmptyIssues env "DATABASE_PASSWORD" false ++
  nonEmptyIssues env "DATABASE_DATABASE" true ++
  optionalIssues env "OTEL_EXPORTER_OTLP_ENDPOINT" (fun _ => true) (fun v => z.isUrl (JsString.trim v)) ++
  optionalIssues env "OTEL_TRACES_SAMPLE_RATIO" z.isNumber z.inUnitInterval ++
  optionalIssues env "OTEL_METRIC_EXPORT_INTERVAL_MILLIS" z.isNumber z.isPositive ++
  enumIssues env "KAFKA_ENABLED" ["true", "false"] ++
  enumIssues env "KAFKA_SSL" ["true", "false"] ++
  enumIssues env "KAFKA_SASL_MECHANISM" ["plain", "scram-sha-256", "scram-sha-512"] ++
  enumIssues env "EVENTSTORE_ENABLED" ["true", "false"]

/-- The `superRefine` of `baseEnvSchema`. -/
def refinementIssues (env : ProcessEnv) : List EnvIssue :=
  (if env "KAFKA_ENABLED" = some "true" && isBlank env "KAFKA_BROKERS" then
    [⟨"KAFKA_BROKERS", some "KAFKA_BROKERS is required when KAFKA_ENABLED is \"true\"", true⟩] else []) ++
  (if env "NODE_ENV" = some "production" && isBlank env "JWT_PRIVATE_KEY" then
    [⟨"JWT_PRIVATE_KEY", some "JWT_PRIVATE_KEY is required when NODE_ENV is \"production\"", true⟩] else [])

/-- `baseEnvSchema`; the refinement is skipped when a field does not have its type. -/
def baseEnvIssues (z : Zod) (env : ProcessEnv) : List EnvIssue :=
  fieldIssues z env ++ if (fieldIssues z env).all (·.continues) then refinementIssues env else []

/-- `origin.trim().replace(/\/$/, '')`. -/
def normalizeOrigin (origin : String) : String :=
  let cs := (JsString.trim origin).toList
  String.ofList (if cs.getLast? = some '/' then cs.dropLast else cs)

/-- `resolveCorsOrigins`, in production. -/
def resolveCorsOrigins (env : ProcessEnv) : List String :=
  let fromEnv := ((env "CORS_ORIGINS").map fun v =>
    ((JsString.split ',' v).map normalizeOrigin).filter (· ≠ "")).getD []
  if fromEnv ≠ [] then fromEnv
  else
    let frontendUrl := JsString.trim ((env "FRONTEND_URL").getD "")
    if frontendUrl ≠ "" then [normalizeOrigin frontendUrl] else []

def validateProductionCorsOrigins (env : ProcessEnv) : List EnvIssue :=
  if resolveCorsOrigins env = [] then
    [⟨"CORS_ORIGINS or FRONTEND_URL", some "at least one origin must be configured in production", true⟩]
  else []

/-- `validateEnv`: the environment itself, or why it does not boot. -/
def validateEnv (z : Zod) (env : ProcessEnv) : Except (List EnvIssue) ProcessEnv :=
  let issues := baseEnvIssues z env
  if issues ≠ [] then .error issues
  else
    let productionErrors :=
      if env "NODE_ENV" = some "production" then validateProductionCorsOrigins env else []
    if productionErrors ≠ [] then .error productionErrors else .ok env

/-! ## `authConfig` -/

/-- `parseInt(process.env.REFRESH_TOKEN_TTL_DAYS ?? '30', 10)`, `none` for `NaN`. -/
def refreshTokenTtlDays (env : ProcessEnv) : Option ℤ :=
  JsString.parseInt ((env "REFRESH_TOKEN_TTL_DAYS").getD "30")

/-- `toLowerCase` is a parameter; nothing depends on the characters it maps. -/
def parsePlatformAdminEmails (toLowerCase : String → String) (raw : Option String) : Option (List String) :=
  raw.map fun raw =>
    ((JsString.split ',' raw).map fun email => toLowerCase (JsString.trim email)).filter (· ≠ "")

/-- The range of a JavaScript `Date` on either side of the epoch, in milliseconds. -/
def maxTime : ℤ := 8640000000000000

/-- `new Date(time)`. -/
def Date.new : Option ℤ → Date
  | none => .invalid
  | some ms => if -maxTime ≤ ms ∧ ms ≤ maxTime then .millis ms else .invalid

/-- `new Date(Date.now() + refreshTokenTtlDays * 24 * 60 * 60 * 1000)`, `time` being `Date.now()`. -/
def refreshExpiresAt (env : ProcessEnv) (time : ℤ) : Date :=
  Date.new ((refreshTokenTtlDays env).map fun days => time + days * 24 * 60 * 60 * 1000)

/-- The first instant of a `timestamp` of PostgreSQL, in 4713 BC. -/
def minTimestamp : ℤ := -210866803200000

/-- The column `refresh_token_expires_at`, `TIMESTAMP NOT NULL`, takes the date. -/
def Date.isTimestamp : Date → Bool
  | .invalid => false
  | .millis ms => minTimestamp ≤ ms

end AccountApi
