import AccountApi.Lib.Owned
import AccountApi.Lib.Run
import Mathlib.Data.Finset.Card
import Mathlib.Logic.Embedding.Basic

/-!
# Tokens that are exchanged once

An atomic store of the tokens of users, each of them live or spent. A client has one demand: a
first token for a user, the successor of the token it presents, or an end to the tokens of a user.
What is presented may be unknown, too old or spent. Whoever presents a spent token may have live
tokens of its user revoked.

* `Inv.unused`: what a client got is unused before.
* `quiet_or_replayed`: of a user for whom nobody demands an end, a token that one client exchanged was
  presented by another one; or no token was found spent, every spent token was exchanged, and there
  are as many live tokens as clients that got a first one.
* `live_le_issued`: in any case there are no more.
-/

namespace OneTime

open Transition

/-- A token as its holder knows it. -/
structure Token (κ υ θ : Type*) where
  key : κ
  user : υ
  expiry : θ
  deriving DecidableEq

inductive Demand (κ υ : Type*) where
  | issue (user : υ)
  | exchange (key : κ)
  | revoke (user : υ)
  deriving DecidableEq

inductive Outcome (κ υ θ : Type*) where
  | issued (token : Token κ υ θ)
  | exchanged (token : Token κ υ θ)
  | unknown
  | expired (token : Token κ υ θ)
  | reused (token : Token κ υ θ)
  deriving DecidableEq

/-- The clients, and what their new tokens are. -/
structure Clients (ι κ υ θ : Type*) where
  demand : ι → Demand κ υ
  newKey : ι ↪ κ
  expiry : ι → θ

structure Store (ι κ υ θ : Type*) where
  live : Finset (Token κ υ θ)
  spent : Finset (Token κ υ θ)
  outcome : ι → Option (Outcome κ υ θ)

inductive Action (ι κ υ θ : Type*) where
  | issue (client : ι) (user : υ)
  | exchange (client : ι) (token : Token κ υ θ) (now : θ)
  | unknown (client : ι) (key : κ)
  | expired (client : ι) (token : Token κ υ θ) (now : θ)
  | reuse (client : ι) (token : Token κ υ θ)
  | revoke (client : ι) (user : υ) (tokens : Finset (Token κ υ θ))

variable {ι κ υ θ : Type*}

/-- Nobody has any token. -/
def Store.empty : Store ι κ υ θ := ⟨∅, ∅, fun _ => none⟩

/-- The user whose token was found spent. -/
def Outcome.alarm : Outcome κ υ θ → Option υ
  | reused token => some token.user
  | _ => none

/-- One for a first token of the user. -/
def Outcome.first [DecidableEq υ] (user : υ) : Outcome κ υ θ → ℕ
  | issued token => if token.user = user then 1 else 0
  | _ => 0

/-- The client has got a token. -/
def Outcome.stored : Outcome κ υ θ → Bool
  | issued _ | exchanged _ => true
  | _ => false

namespace Clients

variable [DecidableEq ι] [DecidableEq κ] [DecidableEq υ] [DecidableEq θ]
  (C : Clients ι κ υ θ) (late : θ → θ → Bool)

def token (i : ι) (user : υ) : Token κ υ θ := ⟨C.newKey i, user, C.expiry i⟩

/-- One action, at once. -/
def step (s : Store ι κ υ θ) : Action ι κ υ θ → Option (Store ι κ υ θ)
  | .issue i user =>
    if C.demand i = .issue user ∧ s.outcome i = none then
      some ⟨insert (C.token i user) s.live, s.spent,
        Function.update s.outcome i (some (.issued (C.token i user)))⟩
    else none
  | .exchange i token now =>
    if C.demand i = .exchange token.key ∧ s.outcome i = none ∧ token ∈ s.live ∧ late token.expiry now = false then
      some ⟨insert (C.token i token.user) (s.live.erase token), insert token s.spent,
        Function.update s.outcome i (some (.exchanged token))⟩
    else none
  | .unknown i key =>
    if C.demand i = .exchange key ∧ s.outcome i = none ∧ ∀ token ∈ s.live ∪ s.spent, token.key ≠ key then
      some ⟨s.live, s.spent, Function.update s.outcome i (some .unknown)⟩
    else none
  | .expired i token now =>
    if C.demand i = .exchange token.key ∧ s.outcome i = none ∧ token ∈ s.live ∧ late token.expiry now = true then
      some ⟨s.live, s.spent, Function.update s.outcome i (some (.expired token))⟩
    else none
  | .reuse i token =>
    if C.demand i = .exchange token.key ∧ s.outcome i = none ∧ token ∈ s.spent then
      some ⟨s.live, s.spent, Function.update s.outcome i (some (.reused token))⟩
    else none
  | .revoke i user tokens =>
    if (C.demand i = .revoke user ∨ (s.outcome i).bind (·.alarm) = some user) ∧
        tokens ⊆ s.live ∧ ∀ token ∈ tokens, token.user = user then
      some ⟨s.live \ tokens, s.spent ∪ tokens, s.outcome⟩
    else none

/-- What an action does, and when it can be performed. -/
inductive Step (s : Store ι κ υ θ) : Action ι κ υ θ → Store ι κ υ θ → Prop
  | issue (i user) : C.demand i = .issue user → s.outcome i = none →
      Step s (.issue i user) ⟨insert (C.token i user) s.live, s.spent,
        Function.update s.outcome i (some (.issued (C.token i user)))⟩
  | exchange (i token now) : C.demand i = .exchange token.key → s.outcome i = none → token ∈ s.live →
      late token.expiry now = false →
      Step s (.exchange i token now) ⟨insert (C.token i token.user) (s.live.erase token), insert token s.spent,
        Function.update s.outcome i (some (.exchanged token))⟩
  | unknown (i key) : C.demand i = .exchange key → s.outcome i = none →
      (∀ token ∈ s.live ∪ s.spent, token.key ≠ key) →
      Step s (.unknown i key) ⟨s.live, s.spent, Function.update s.outcome i (some .unknown)⟩
  | expired (i token now) : C.demand i = .exchange token.key → s.outcome i = none → token ∈ s.live →
      late token.expiry now = true →
      Step s (.expired i token now) ⟨s.live, s.spent, Function.update s.outcome i (some (.expired token))⟩
  | reuse (i token) : C.demand i = .exchange token.key → s.outcome i = none → token ∈ s.spent →
      Step s (.reuse i token) ⟨s.live, s.spent, Function.update s.outcome i (some (.reused token))⟩
  | revoke (i user tokens) : C.demand i = .revoke user ∨ (s.outcome i).bind (·.alarm) = some user →
      tokens ⊆ s.live → (∀ token ∈ tokens, token.user = user) →
      Step s (.revoke i user tokens) ⟨s.live \ tokens, s.spent ∪ tokens, s.outcome⟩

variable {C late} {s t : Store ι κ υ θ} {a : Action ι κ υ θ} {user : υ}

theorem step_iff : C.step late s a = some t ↔ Step C late s a t := by
  constructor
  · intro h
    cases a <;> simp only [step, Option.ite_none_right_eq_some, Option.some.injEq] at h <;>
      obtain ⟨hguard, rfl⟩ := h
    case issue => exact .issue _ _ hguard.1 hguard.2
    case exchange => exact .exchange _ _ _ hguard.1 hguard.2.1 hguard.2.2.1 hguard.2.2.2
    case unknown => exact .unknown _ _ hguard.1 hguard.2.1 hguard.2.2
    case expired => exact .expired _ _ _ hguard.1 hguard.2.1 hguard.2.2.1 hguard.2.2.2
    case reuse => exact .reuse _ _ hguard.1 hguard.2.1 hguard.2.2
    case revoke => exact .revoke _ _ _ hguard.1 hguard.2.1 hguard.2.2
  · intro h
    cases h with
    | issue i user hd ho => exact if_pos ⟨hd, ho⟩
    | exchange i token now hd ho hl he => exact if_pos ⟨hd, ho, hl, he⟩
    | unknown i key hd ho hk => exact if_pos ⟨hd, ho, hk⟩
    | expired i token now hd ho hl he => exact if_pos ⟨hd, ho, hl, he⟩
    | reuse i token hd ho hs => exact if_pos ⟨hd, ho, hs⟩
    | revoke i user tokens hd hl hu => exact if_pos ⟨hd, hl, hu⟩

omit [DecidableEq κ] [DecidableEq υ] [DecidableEq θ] in
/-- A decided client has its outcome, the others have theirs. -/
theorem outcome_cases {f : ι → Option (Outcome κ υ θ)} {i j : ι} {o : Outcome κ υ θ}
    {p : Option (Outcome κ υ θ)} (h : Function.update f i (some o) j = p) :
    (j = i ∧ p = some o) ∨ (j ≠ i ∧ f j = p) := by
  by_cases hj : j = i
  · subst hj
    rw [Function.update_self] at h
    exact Or.inl ⟨rfl, h.symm⟩
  · rw [Function.update_of_ne hj] at h
    exact Or.inr ⟨hj, h⟩

/-- An outcome is final. -/
theorem Step.final (h : Step C late s a t) {j : ι} {o : Outcome κ υ θ} (hj : s.outcome j = some o) :
    t.outcome j = some o := by
  have hkeep : ∀ {i o'}, s.outcome i = none → Function.update s.outcome i (some o') j = some o := by
    intro i o' hi
    rw [Function.update_of_ne, hj]
    rintro rfl
    rw [hi] at hj
    cases hj
  cases h with
  | issue i user hd ho | exchange i token now hd ho _ _ | unknown i key hd ho _
  | expired i token now hd ho _ _ | reuse i token hd ho _ => exact hkeep ho
  | revoke i user tokens _ _ _ => exact hj

/-- Spent is for ever. -/
theorem Step.spent (h : Step C late s a t) : s.spent ⊆ t.spent := by
  cases h with
  | exchange i token now _ _ _ _ => exact Finset.subset_insert _ _
  | revoke i user tokens _ _ _ => exact Finset.subset_union_left
  | _ => exact Finset.Subset.refl _

/-- The token a step adds is that of the client it decides. -/
theorem Step.added (h : Step C late s a t) {token : Token κ υ θ} (ht : token ∈ t.live ∪ t.spent) :
    token ∈ s.live ∪ s.spent ∨
      ∃ i, (t.outcome i).any (·.stored) = true ∧ s.outcome i = none ∧ token.key = C.newKey i := by
  cases h with
  | issue i user hd ho =>
    simp only [Finset.mem_union, Finset.mem_insert] at ht ⊢
    rcases ht with (rfl | hl) | hs
    · exact Or.inr ⟨i, by simp [Outcome.stored], ho, rfl⟩
    · exact Or.inl (Or.inl hl)
    · exact Or.inl (Or.inr hs)
  | exchange i token' now hd ho hl he =>
    simp only [Finset.mem_union, Finset.mem_insert, Finset.mem_erase] at ht ⊢
    rcases ht with (rfl | hl') | rfl | hs
    · exact Or.inr ⟨i, by simp [Outcome.stored], ho, rfl⟩
    · exact Or.inl (Or.inl hl'.2)
    · exact Or.inl (Or.inl hl)
    · exact Or.inl (Or.inr hs)
  | revoke i user tokens hd hl hu =>
    simp only [Finset.mem_union, Finset.mem_sdiff] at ht ⊢
    rcases ht with hl' | hs | hk
    · exact Or.inl (Or.inl hl'.1)
    · exact Or.inl (Or.inr hs)
    · exact Or.inl (Or.inl (hl hk))
  | _ => exact Or.inl ht

variable (C) in
/-- What an outcome says about its client. -/
def Justified (s : Store ι κ υ θ) (i : ι) : Outcome κ υ θ → Prop
  | .issued token => C.demand i = .issue token.user
  | .exchanged token | .reused token => C.demand i = .exchange token.key ∧ token ∈ s.spent
  | .expired token => C.demand i = .exchange token.key
  | .unknown => True

variable (C) in
structure Inv (s : Store ι κ υ θ) : Prop where
  unused : ∀ i, (s.outcome i).any (·.stored) = false → ∀ token ∈ s.live ∪ s.spent, token.key ≠ C.newKey i
  justified : ∀ i o, s.outcome i = some o → Justified C s i o

omit [DecidableEq ι] in
theorem inv_empty : Inv C Store.empty := ⟨by simp [Store.empty], by simp [Store.empty]⟩

omit [DecidableEq ι] [DecidableEq κ] [DecidableEq υ] [DecidableEq θ] in
theorem Justified.mono {i : ι} {o : Outcome κ υ θ} (hspent : s.spent ⊆ t.spent) (h : Justified C s i o) :
    Justified C t i o := by
  cases o with
  | exchanged token | reused token => exact ⟨h.1, hspent h.2⟩
  | _ => exact h

/-- The step that decides a client justifies the outcome. -/
theorem Step.justified (h : Step C late s a t) {i : ι} {o : Outcome κ υ θ} (hs : s.outcome i = none)
    (ht : t.outcome i = some o) : Justified C t i o := by
  have hstays : s.outcome i ≠ some o := by simp [hs]
  cases h with
  | issue j user hd ho =>
    rcases outcome_cases ht with ⟨rfl, heq⟩ | ⟨-, hj⟩
    · cases heq; exact hd
    · exact absurd hj hstays
  | exchange j token now hd ho hl he =>
    rcases outcome_cases ht with ⟨rfl, heq⟩ | ⟨-, hj⟩
    · cases heq; exact ⟨hd, Finset.mem_insert_self _ _⟩
    · exact absurd hj hstays
  | unknown j key hd ho _ =>
    rcases outcome_cases ht with ⟨rfl, heq⟩ | ⟨-, hj⟩
    · cases heq; trivial
    · exact absurd hj hstays
  | expired j token now hd ho _ _ =>
    rcases outcome_cases ht with ⟨rfl, heq⟩ | ⟨-, hj⟩
    · cases heq; exact hd
    · exact absurd hj hstays
  | reuse j token hd ho hspent =>
    rcases outcome_cases ht with ⟨rfl, heq⟩ | ⟨-, hj⟩
    · cases heq; exact ⟨hd, hspent⟩
    · exact absurd hj hstays
  | revoke j user tokens _ _ _ => exact absurd ht hstays

theorem inv_step (hI : Inv C s) (h : Step C late s a t) : Inv C t where
  unused j hj token ht := by
    rcases h.added ht with hold | ⟨i, hstored, -, hkey⟩
    · refine hI.unused j ?_ token hold
      cases ho : s.outcome j with
      | none => rfl
      | some o => rw [h.final ho] at hj; exact hj
    · intro hkey'
      obtain rfl := C.newKey.injective (hkey.symm.trans hkey')
      rw [hstored] at hj
      cases hj
  justified i o ho := by
    cases hs : s.outcome i with
    | none => exact h.justified hs ho
    | some o' =>
      obtain rfl := Option.some.inj ((h.final hs).symm.trans ho)
      exact (hI.justified i o' hs).mono h.spent

theorem inv_run {as : List (Action ι κ υ θ)} (h : exec (C.step late) Store.empty as = some s) : Inv C s :=
  invariant (fun _ _ _ hI h => inv_step hI (step_iff.1 h)) inv_empty h

/-- A token of the user was exchanged by one client, and found spent when another one presented it. -/
def Replayed (s : Store ι κ υ θ) (user : υ) : Prop :=
  ∃ token i j, token.user = user ∧ s.outcome i = some (.reused token) ∧ s.outcome j = some (.exchanged token)

/-- No token of the user was found spent, and only exchanges have spent any. -/
structure Quiet (s : Store ι κ υ θ) (user : υ) : Prop where
  alarm : ∀ i, (s.outcome i).bind (·.alarm) ≠ some user
  spent : ∀ token ∈ s.spent, token.user = user → ∃ j, s.outcome j = some (.exchanged token)

omit [DecidableEq ι] [DecidableEq κ] [DecidableEq υ] [DecidableEq θ] in
theorem quiet_empty : Quiet (Store.empty : Store ι κ υ θ) user := ⟨by simp [Store.empty], by simp [Store.empty]⟩

omit [DecidableEq ι] [DecidableEq κ] [DecidableEq υ] [DecidableEq θ] in
theorem alarm_eq {i : ι} : (s.outcome i).bind (·.alarm) = some user ↔
    ∃ token, s.outcome i = some (.reused token) ∧ token.user = user := by
  constructor
  · intro h
    obtain ⟨o, ho, halarm⟩ := Option.bind_eq_some_iff.1 h
    cases o with
    | reused token => exact ⟨token, ho, Option.some.inj halarm⟩
    | _ => cases halarm
  · rintro ⟨token, ho, rfl⟩
    rw [ho]
    rfl

theorem Replayed.step (h : Step C late s a t) (hr : Replayed s user) : Replayed t user := by
  obtain ⟨token, i, j, hu, hi, hj⟩ := hr
  exact ⟨token, i, j, hu, h.final hi, h.final hj⟩

/-- **A step leaves a quiet user quiet**, unless a token that was exchanged is presented again. -/
theorem Quiet.step (hdemand : ∀ i, C.demand i ≠ .revoke user) (hq : Quiet s user) (h : Step C late s a t) :
    Quiet t user ∨ Replayed t user := by
  have hstays : ∀ token ∈ s.spent, token.user = user → ∃ j, t.outcome j = some (.exchanged token) := by
    intro token ht hu
    obtain ⟨j, hj⟩ := hq.spent token ht hu
    exact ⟨j, h.final hj⟩
  -- an outcome that is no alarm for the user raises none
  have halarm : ∀ {i o}, o.alarm ≠ some user →
      ∀ j, (Function.update s.outcome i (some o) j).bind (·.alarm) ≠ some user := by
    intro i o ho j hj
    by_cases hji : j = i
    · subst hji
      rw [Function.update_self] at hj
      exact ho hj
    · rw [Function.update_of_ne hji] at hj
      exact hq.alarm j hj
  cases h with
  | issue i user' _ _ | unknown i key _ _ _ | expired i token now _ _ _ _ =>
    exact Or.inl ⟨halarm (by simp [Outcome.alarm]), hstays⟩
  | exchange i token now _ _ _ _ =>
    refine Or.inl ⟨halarm (by simp [Outcome.alarm]), fun token' ht hu => ?_⟩
    rcases Finset.mem_insert.1 ht with rfl | hold
    · exact ⟨i, Function.update_self ..⟩
    · exact hstays token' hold hu
  | reuse i token _ _ hspent =>
    by_cases hu : token.user = user
    · obtain ⟨j, hj⟩ := hstays token hspent hu
      exact Or.inr ⟨token, i, j, hu, Function.update_self .., hj⟩
    · exact Or.inl ⟨halarm (by simpa [Outcome.alarm] using hu), hstays⟩
  | revoke i user' tokens hwho _ hown =>
    refine Or.inl ⟨hq.alarm, fun token ht hu => ?_⟩
    rcases Finset.mem_union.1 ht with hold | hnew
    · exact hstays token hold hu
    · -- nobody may revoke the tokens of a quiet user
      obtain rfl : user' = user := (hown token hnew).symm.trans hu
      rcases hwho with hwho | hwho
      · exact absurd hwho (hdemand i)
      · exact absurd hwho (hq.alarm i)

theorem quiet_or_replayed (hdemand : ∀ i, C.demand i ≠ .revoke user) {as : List (Action ι κ υ θ)}
    (h : exec (C.step late) Store.empty as = some s) : Quiet s user ∨ Replayed s user := by
  refine invariant (I := fun s => Quiet s user ∨ Replayed s user) ?_ (Or.inl quiet_empty) h
  rintro s a t (hq | hr) hstep
  · exact hq.step hdemand (step_iff.1 hstep)
  · exact Or.inr (hr.step (step_iff.1 hstep))

variable [Fintype ι]

/-- The clients that got a first token of the user. -/
def issuedTo (s : Store ι κ υ θ) (user : υ) : ℕ := ∑ i, (s.outcome i).elim 0 (·.first user)

def liveOf (s : Store ι κ υ θ) (user : υ) : Finset (Token κ υ θ) := s.live.filter fun token => token.user = user

omit [DecidableEq κ] [DecidableEq θ] in
/-- A client that is decided adds what it got. -/
theorem issuedTo_update {i : ι} (hi : s.outcome i = none) (o : Outcome κ υ θ)
    {live spent : Finset (Token κ υ θ)} :
    issuedTo ⟨live, spent, Function.update s.outcome i (some o)⟩ user = issuedTo s user + o.first user := by
  have hsum := sum_update_add s.outcome (fun o => o.elim 0 (·.first user)) i (some o)
  rw [hi] at hsum
  simpa [issuedTo] using hsum

/-- A token replaced by one of the same user. -/
theorem card_replace {p : Token κ υ θ → Prop} [DecidablePred p] {live : Finset (Token κ υ θ)}
    {old new : Token κ υ θ} (hold : old ∈ live) (hnew : new ∉ live) (hp : p new ↔ p old) :
    ((insert new (live.erase old)).filter p).card = (live.filter p).card := by
  have hnot : new ∉ (live.erase old).filter p := fun h => hnew (Finset.mem_of_mem_erase (Finset.mem_filter.1 h).1)
  rw [Finset.filter_insert, Finset.filter_erase] at *
  by_cases h : p old
  · rw [if_pos (hp.2 h), Finset.card_insert_of_notMem hnot,
      Finset.card_erase_add_one (Finset.mem_filter.2 ⟨hold, h⟩)]
  · rw [if_neg (fun hn => h (hp.1 hn)), Finset.erase_eq_of_notMem (fun hm => h (Finset.mem_filter.1 hm).2)]

/-- What a step does to the number of live tokens of a user: it grows with each first token, and only
those entitled to it make it less. -/
theorem Step.liveOf_card (user : υ) (hI : Inv C s) (h : Step C late s a t) :
    ((liveOf t user).card + issuedTo s user = (liveOf s user).card + issuedTo t user) ∨
      ((liveOf t user).card ≤ (liveOf s user).card ∧ issuedTo t user = issuedTo s user ∧
        ∃ i, C.demand i = .revoke user ∨ (s.outcome i).bind (·.alarm) = some user) := by
  -- the new token of an undecided client
  have hfresh : ∀ {i user'}, s.outcome i = none → C.token i user' ∉ s.live := by
    intro i user' hi hmem
    refine hI.unused i (by rw [hi]; rfl) _ (Finset.mem_union_left _ hmem) rfl
  cases h with
  | issue i user' hd hi =>
    refine Or.inl ?_
    rw [issuedTo_update hi, Outcome.first]
    simp only [liveOf, Finset.filter_insert]
    have hnot : C.token i user' ∉ s.live.filter fun token => token.user = user :=
      fun hm => hfresh hi (Finset.mem_filter.1 hm).1
    by_cases hu : (C.token i user').user = user
    · rw [if_pos hu, if_pos hu, Finset.card_insert_of_notMem hnot]
      omega
    · rw [if_neg hu, if_neg hu]
      omega
  | exchange i token now _ hi hl _ =>
    refine Or.inl ?_
    simp only [liveOf, card_replace (p := fun token => token.user = user) hl (hfresh hi) Iff.rfl]
    rw [issuedTo_update hi]
    rfl
  | unknown i key _ hi _ | expired i token now _ hi _ _ | reuse i token _ hi _ =>
    refine Or.inl ?_
    rw [issuedTo_update hi]
    rfl
  | revoke i user' tokens hwho hsub hown =>
    by_cases hu : user' = user
    · subst hu
      refine Or.inr ⟨Finset.card_le_card (Finset.filter_subset_filter _ Finset.sdiff_subset), rfl, i, hwho⟩
    · refine Or.inl ?_
      have hsame : liveOf ⟨s.live \ tokens, s.spent ∪ tokens, s.outcome⟩ user = liveOf s user := by
        ext token
        simp only [liveOf, Finset.mem_filter, Finset.mem_sdiff]
        constructor
        · rintro ⟨⟨hl, -⟩, ht⟩
          exact ⟨hl, ht⟩
        · rintro ⟨hl, ht⟩
          exact ⟨⟨hl, fun hm => hu ((hown token hm).symm.trans ht)⟩, ht⟩
      rw [hsame]
      rfl

/-- **There are never more live tokens of a user than clients that got a first one**, and as many as
long as nobody may revoke them. -/
theorem live_le_issued (user : υ) {as : List (Action ι κ υ θ)} (h : exec (C.step late) Store.empty as = some s) :
    (liveOf s user).card ≤ issuedTo s user ∧
      ((∀ i, C.demand i ≠ .revoke user ∧ (s.outcome i).bind (·.alarm) ≠ some user) →
        (liveOf s user).card = issuedTo s user) := by
  have hrun : Inv C s ∧ (liveOf s user).card ≤ issuedTo s user ∧
      ((∀ i, C.demand i ≠ .revoke user ∧ (s.outcome i).bind (·.alarm) ≠ some user) →
        (liveOf s user).card = issuedTo s user) := by
    refine invariant (I := fun s => Inv C s ∧ (liveOf s user).card ≤ issuedTo s user ∧
      ((∀ i, C.demand i ≠ .revoke user ∧ (s.outcome i).bind (·.alarm) ≠ some user) →
        (liveOf s user).card = issuedTo s user)) ?_ ⟨inv_empty, by simp [liveOf, Store.empty], ?_⟩ h
    · rintro s a t ⟨hI, hle, heq⟩ hstep
      rw [step_iff] at hstep
      -- an alarm of the state before is one of the state after
      have hbefore : (∀ i, C.demand i ≠ .revoke user ∧ (t.outcome i).bind (·.alarm) ≠ some user) →
          ∀ i, C.demand i ≠ .revoke user ∧ (s.outcome i).bind (·.alarm) ≠ some user := by
        intro hnone i
        refine ⟨(hnone i).1, fun halarm => (hnone i).2 ?_⟩
        obtain ⟨token, ho, hu⟩ := alarm_eq.1 halarm
        exact alarm_eq.2 ⟨token, hstep.final ho, hu⟩
      refine ⟨inv_step hI hstep, ?_, fun hnone => ?_⟩
      · rcases hstep.liveOf_card user hI with hsame | ⟨hless, hissued, -⟩ <;> omega
      · rcases hstep.liveOf_card user hI with hsame | ⟨-, -, i, hwho⟩
        · have := heq (hbefore hnone)
          omega
        · rcases hwho with hwho | hwho
          · exact absurd hwho (hnone i).1
          · exact absurd hwho (hbefore hnone i).2
    · intro _
      simp [liveOf, issuedTo, Store.empty]
  exact hrun.2

end Clients

end OneTime
