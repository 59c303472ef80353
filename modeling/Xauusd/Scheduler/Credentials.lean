/-
  The credentials of the provider accounts (`configured_api_credentials` in
  `news/scheduler/state.py`, `ai/credentials.py`).

  Entries name an account, a pool, keys, and identifiers for the keys or none,
  in which case these are derived from the keys.

  * `Registry.addKey`, `addEntry`: one key, one entry;
  * `configuredApiCredentials`: the credentials, or the error;
  * `mem_credentials_iff`: the credentials are those that the entries list;
  * `Unambiguous`: an account is in one pool, a key and an identifier are in
    one credential, none contains a key, and every key is there;
  * `unambiguous_iff`: **what is accepted is unambiguous, if and only if no key
    is listed under two identifiers and no derived one contains a key**.
-/
import Xauusd.Lib.Hmac
import Xauusd.Lib.PyJson

/-- `dict.setdefault`: the value under the key, which is `v` if there was none. -/
def List.setdefault {κ ν : Type*} [BEq κ] (d : List (κ × ν)) (k : κ) (v : ν) : ν × List (κ × ν) :=
  match d.lookup k with
  | some u => (u, d)
  | none => (v, d ++ [(k, v)])

section
variable {κ ν : Type*} [BEq κ] {d : List (κ × ν)} {k k' : κ} {u v : ν}

theorem List.lookup_setdefault [LawfulBEq κ] :
    (d.setdefault k v).2.lookup k = some (d.setdefault k v).1 := by
  unfold List.setdefault
  cases hk : d.lookup k with
  | some u => exact hk
  | none => simp [List.lookup_append, hk]

/-- What a dictionary holds, it keeps. -/
theorem List.lookup_setdefault_of_some (h : d.lookup k' = some u) : (d.setdefault k v).2.lookup k' = some u := by
  unfold List.setdefault
  cases hk : d.lookup k with
  | some u => exact h
  | none => rw [List.lookup_append, h, Option.some_or]

end

namespace Xauusd.Credentials

/-! ## Identifiers -/

inductive CredentialPool where
  | routine
  | preemptible
  deriving DecidableEq, Repr

structure ApiCredential where
  accountId : PyStr
  pool : CredentialPool
  apiKey : PyStr
  credentialId : PyStr
  deriving DecidableEq, Repr

inductive ConfigurationError where
  | valueError (message : String)
  | unicodeEncodeError
  deriving DecidableEq, Repr

abbrev Configured := Except ConfigurationError

/-- `derived_credential_id` -/
def derivedCredentialId (apiKey : PyStr) : Configured PyStr :=
  match apiKey.encode with
  | none => .error .unicodeEncodeError
  | some key =>
    .ok (PyStr.of "hmac-v1-" ++
      PyStr.ofChars ((Sha256.hex (Sha256.hmac key ("xauusd-forecaster/credential-id/v1".toList.flatMap Sha256.utf8))).take 32))

/-- `_contains_raw_key` -/
def containsRawKey (identifier apiKey : PyStr) : Bool := decide (apiKey <:+: identifier)

/-- `str.upper()`, exact where it yields ASCII letters -/
def upper (s : PyStr) : PyStr :=
  s.flatMap fun
    | .char c => PyStr.ofChars (Text.upperChar c)
    | .surrogate n => [.surrogate n]

def CredentialPool.ofText? (s : PyStr) : Option CredentialPool :=
  if s = PyStr.of "ROUTINE" then some routine else if s = PyStr.of "PREEMPTIBLE" then some preemptible else none

/-! ## Entries -/

section
variable (str : PyJson → PyStr)

/-- `str(value or "").strip()`, where `str` writes what is no string. -/
def strippedText : Option PyJson → PyStr
  | none => []
  | some v =>
    PyStr.strip (if v.truthy then
      match v with
      | .str s => s
      | v => str v
    else [])

/-- An entry, with its keys. -/
structure NormalizedEntry where
  members : List (PyStr × PyJson)
  apiKeys : List PyStr

/-- The checks of the first loop. -/
def normalizeEntry : PyJson → Configured NormalizedEntry
  | .dict members =>
    match members.lookup (PyStr.of "api_keys") with
    | some (.list (k :: ks)) =>
      let apiKeys := (k :: ks).map fun v => strippedText str (some v)
      if [] ∈ apiKeys then .error (.valueError "Gemini account contains an empty API key")
      else .ok ⟨members, apiKeys⟩
    | _ => .error (.valueError "Gemini account api_keys must be a non-empty list")
  | _ => .error (.valueError "each Gemini account must be an object")

/-- `account_id` -/
def NormalizedEntry.accountId (e : NormalizedEntry) : PyStr := strippedText str (e.members.lookup (PyStr.of "account_id"))

/-- `pool` -/
def NormalizedEntry.pool? (e : NormalizedEntry) : Option CredentialPool :=
  CredentialPool.ofText? (upper (strippedText str (e.members.lookup (PyStr.of "pool"))))

/-- The keys, each with the identifier that is given for it. -/
def NormalizedEntry.slots (e : NormalizedEntry) : Configured (List (PyStr × Option PyJson)) :=
  match e.members.lookup (PyStr.of "credential_ids") with
  | none | some .none => .ok (e.apiKeys.map fun k => (k, none))
  | some (.list ids) =>
    if ids.length ≠ e.apiKeys.length then
      .error (.valueError "Gemini account credential_ids must match api_keys")
    else .ok (e.apiKeys.zip (ids.map some))
  | some _ => .error (.valueError "Gemini account credential_ids must match api_keys")

/-- The dictionaries of the second loop, and the credentials. -/
structure Registry where
  credentials : List ApiCredential
  accountPools : List (PyStr × CredentialPool)
  keyAccounts : List (PyStr × PyStr)
  credentialIdKeys : List (PyStr × PyStr)

def Registry.empty : Registry := ⟨[], [], [], []⟩

/-- The identifier of a key: the one that is given, which contains no
    configured key, or the one derived from it. -/
def credentialId (configured : List PyStr) (apiKey : PyStr) (given : Option PyJson) : Configured PyStr :=
  match derivedCredentialId apiKey, given with
  | .error e, _ => .error e
  | .ok derived, none => .ok derived
  | .ok _, some v =>
    let id := strippedText str (some v)
    if id = [] then .error (.valueError "Gemini credential_id is required")
    else if configured.any (containsRawKey id) then
      .error (.valueError "Gemini credential_id must not contain an API key")
    else .ok id

/-- One key of an entry. -/
def Registry.addKey (configured : List PyStr) (accountId : PyStr) (pool : CredentialPool) (s : Registry)
    (slot : PyStr × Option PyJson) : Configured Registry :=
  let (priorAccount, keyAccounts) := s.keyAccounts.setdefault slot.1 accountId
  if priorAccount ≠ accountId then .error (.valueError "one Gemini API key cannot belong to two accounts")
  else
    match credentialId str configured slot.1 slot.2 with
    | .error e => .error e
    | .ok id =>
      let (priorKey, credentialIdKeys) := s.credentialIdKeys.setdefault id slot.1
      if priorKey ≠ slot.1 then .error (.valueError "Gemini credential_id must be unique")
      else
        let credential : ApiCredential := ⟨accountId, pool, slot.1, id⟩
        .ok ⟨if credential ∈ s.credentials then s.credentials else s.credentials ++ [credential],
          s.accountPools, keyAccounts, credentialIdKeys⟩

/-- One entry of the second loop. -/
def Registry.addEntry (configured : List PyStr) (s : Registry) (e : NormalizedEntry) : Configured Registry :=
  let accountId := e.accountId str
  if accountId = [] then .error (.valueError "Gemini account_id is required")
  else if configured.any (containsRawKey accountId) then
    .error (.valueError "Gemini account_id must not contain an API key")
  else
    match e.pool? str with
    | none => .error (.valueError "Gemini account pool is not controlled")
    | some pool =>
      match e.slots with
      | .error err => .error err
      | .ok slots =>
        let (priorPool, accountPools) := s.accountPools.setdefault accountId pool
        if priorPool ≠ pool then .error (.valueError "one Gemini account cannot belong to two pools")
        else slots.foldlM (Registry.addKey str configured accountId pool) { s with accountPools := accountPools }

/-- What `GEMINI_API_ACCOUNTS` holds: nothing but white space, in which case
    the legacy keys are read, a text that is no JSON, or a value. -/
inductive RawAccounts where
  | blank (keys : List PyStr)
  | malformed
  | json (v : PyJson)

/-- The entry of a legacy key. -/
def legacyEntry (key : PyStr) : Configured PyJson :=
  (derivedCredentialId key).map fun id =>
    .dict [(PyStr.of "account_id", .str (PyStr.of "legacy-" ++ id)), (PyStr.of "pool", .str (PyStr.of "ROUTINE")),
      (PyStr.of "api_keys", .list [.str key])]

def RawAccounts.entries : RawAccounts → Configured (List PyJson)
  | blank keys => ((keys.map PyStr.strip).filter (· ≠ [])).mapM legacyEntry
  | malformed => .error (.valueError "GEMINI_API_ACCOUNTS is not valid JSON")
  | json (.list entries) => .ok entries
  | json _ => .error (.valueError "GEMINI_API_ACCOUNTS must be a JSON list")

/-- The entries after the first loop. -/
def RawAccounts.normalized (raw : RawAccounts) : Configured (List NormalizedEntry) := do
  let entries ← raw.entries
  entries.mapM (normalizeEntry str)

/-- `configured_keys` -/
def configuredKeys (entries : List NormalizedEntry) : List PyStr := (entries.flatMap (·.apiKeys)).eraseDups

/-- `configured_api_credentials` -/
def configuredApiCredentials (raw : RawAccounts) : Configured (List ApiCredential) := do
  let entries ← raw.normalized str
  let registry ← entries.foldlM (Registry.addEntry str (configuredKeys entries)) .empty
  return registry.credentials

end

/-! ## The registry -/

variable {str : PyJson → PyStr} {configured : List PyStr} {accountId : PyStr} {pool : CredentialPool}
  {s s' : Registry} {slot : PyStr × Option PyJson} {slots : List (PyStr × Option PyJson)} {e : NormalizedEntry}
  {entries : List NormalizedEntry} {c : ApiCredential}

/-- Every credential stands once, and in the dictionaries. -/
structure Registry.Sound (s : Registry) : Prop where
  nodup : s.credentials.Nodup
  pools : ∀ c ∈ s.credentials, s.accountPools.lookup c.accountId = some c.pool
  accounts : ∀ c ∈ s.credentials, s.keyAccounts.lookup c.apiKey = some c.accountId
  keys : ∀ c ∈ s.credentials, s.credentialIdKeys.lookup c.credentialId = some c.apiKey

/-- The credential of a key, for an account in a pool. -/
def IsCredential (str : PyJson → PyStr) (configured : List PyStr) (accountId : PyStr) (pool : CredentialPool)
    (slot : PyStr × Option PyJson) (c : ApiCredential) : Prop :=
  c.accountId = accountId ∧ c.pool = pool ∧ c.apiKey = slot.1 ∧
    credentialId str configured slot.1 slot.2 = .ok c.credentialId

/-- The step on one key. -/
theorem addKey_ok (h : s.addKey str configured accountId pool slot = .ok s') :
    (∃ c, IsCredential str configured accountId pool slot c) ∧
      (∀ c, c ∈ s'.credentials ↔ c ∈ s.credentials ∨ IsCredential str configured accountId pool slot c) ∧
      s'.accountPools = s.accountPools ∧
      (s.Sound → s.accountPools.lookup accountId = some pool → s'.Sound) := by
  unfold Registry.addKey at h
  dsimp only at h
  split at h
  · cases h
  · next haccount =>
    have haccount := not_not.1 haccount
    split at h
    · cases h
    · next id hid =>
      split at h
      · cases h
      · next hkey =>
        have hkey := not_not.1 hkey
        have haccounts := List.lookup_setdefault (d := s.keyAccounts) (k := slot.1) (v := accountId)
        have hkeys := List.lookup_setdefault (d := s.credentialIdKeys) (k := id) (v := slot.1)
        rw [haccount] at haccounts
        rw [hkey] at hkeys
        obtain rfl := Except.ok.inj h
        have hmem (c : ApiCredential) : c ∈ (if (⟨accountId, pool, slot.1, id⟩ : ApiCredential) ∈ s.credentials
            then s.credentials else s.credentials ++ [⟨accountId, pool, slot.1, id⟩]) ↔
              c ∈ s.credentials ∨ IsCredential str configured accountId pool slot c := by
          have hc : IsCredential str configured accountId pool slot c ↔ c = ⟨accountId, pool, slot.1, id⟩ := by
            cases c
            simp [IsCredential, hid, eq_comm (a := id)]
          rw [hc]
          split
          · next hin =>
            refine ⟨.inl, ?_⟩
            rintro (h | rfl)
            · exact h
            · exact hin
          · rw [List.mem_append, List.mem_singleton]
        refine ⟨⟨⟨accountId, pool, slot.1, id⟩, rfl, rfl, rfl, hid⟩, hmem, rfl, fun hs hpool => ⟨?_, fun c hc => ?_,
          fun c hc => ?_, fun c hc => ?_⟩⟩
        · dsimp only
          split
          · exact hs.nodup
          · next hnew =>
            refine List.nodup_append.2 ⟨hs.nodup, by simp, fun c hc c' hc' heq => hnew ?_⟩
            rw [← List.mem_singleton.1 hc', ← heq]
            exact hc
        · rcases (hmem c).1 hc with hc | ⟨hcaccount, hcpool, -, -⟩
          · exact hs.pools c hc
          · rw [hcaccount, hcpool]
            exact hpool
        · rcases (hmem c).1 hc with hc | ⟨hcaccount, -, hckey, -⟩
          · exact List.lookup_setdefault_of_some (hs.accounts c hc)
          · rw [hcaccount, hckey]
            exact haccounts
        · rcases (hmem c).1 hc with hc | ⟨-, -, hckey, hcid⟩
          · exact List.lookup_setdefault_of_some (hs.keys c hc)
          · obtain rfl : id = c.credentialId := Except.ok.inj (hid.symm.trans hcid)
            rw [hckey]
            exact hkeys

/-- The keys of an entry. -/
theorem addKeys_ok (h : slots.foldlM (Registry.addKey str configured accountId pool) s = .ok s') :
    (∀ slot ∈ slots, ∃ c, IsCredential str configured accountId pool slot c) ∧
      (∀ c, c ∈ s'.credentials ↔
        c ∈ s.credentials ∨ ∃ slot ∈ slots, IsCredential str configured accountId pool slot c) ∧
      (s.Sound → s.accountPools.lookup accountId = some pool → s'.Sound) := by
  induction slots generalizing s with
  | nil =>
    obtain rfl : s = s' := Except.ok.inj h
    exact ⟨by simp, by simp, fun hs _ => hs⟩
  | cons slot slots ih =>
    rw [List.foldlM_cons] at h
    cases hstep : s.addKey str configured accountId pool slot with
    | error err =>
      rw [hstep] at h
      cases h
    | ok t =>
      rw [hstep] at h
      obtain ⟨hslot, hmem, hpools, hsound⟩ := addKey_ok hstep
      obtain ⟨hslots, hmem', hsound'⟩ := ih h
      refine ⟨List.forall_mem_cons.2 ⟨hslot, hslots⟩, fun c => ?_, fun hs hpool => ?_⟩
      · rw [hmem', hmem, List.exists_mem_cons_iff, or_assoc]
      · exact hsound' (hsound hs hpool) (by rw [hpools]; exact hpool)

/-- The entry lists the credential. -/
def NormalizedEntry.Lists (str : PyJson → PyStr) (configured : List PyStr) (e : NormalizedEntry) (c : ApiCredential) :
    Prop :=
  ∃ pool slots, e.pool? str = some pool ∧ e.slots = .ok slots ∧
    ∃ slot ∈ slots, IsCredential str configured (e.accountId str) pool slot c

/-- The entry passes the checks: its account is named without a key, and each
    of its keys has a credential. -/
def NormalizedEntry.Accepted (str : PyJson → PyStr) (configured : List PyStr) (e : NormalizedEntry) : Prop :=
  (∀ k ∈ configured, ¬ k <:+: e.accountId str) ∧ ∃ pool slots, e.pool? str = some pool ∧ e.slots = .ok slots ∧
    ∀ slot ∈ slots, ∃ c, IsCredential str configured (e.accountId str) pool slot c

/-- The step on one entry. -/
theorem addEntry_ok (h : s.addEntry str configured e = .ok s') : e.Accepted str configured ∧
    (∀ c, c ∈ s'.credentials ↔ c ∈ s.credentials ∨ e.Lists str configured c) ∧ (s.Sound → s'.Sound) := by
  unfold Registry.addEntry at h
  dsimp only at h
  split at h
  · cases h
  · split at h
    · cases h
    · next hsecret =>
      split at h
      · cases h
      · next pool hpool =>
        split at h
        · cases h
        · next slots hslots =>
          split at h
          · cases h
          · next hprior =>
            have hprior := not_not.1 hprior
            have hpools := List.lookup_setdefault (d := s.accountPools) (k := e.accountId str) (v := pool)
            rw [hprior] at hpools
            obtain ⟨hkeys, hmem, hsound⟩ := addKeys_ok h
            refine ⟨⟨fun k hk hin => hsecret ?_, pool, slots, hpool, hslots, hkeys⟩, fun c => ?_, fun hs => hsound ?_ hpools⟩
            · exact List.any_eq_true.2 ⟨k, hk, decide_eq_true hin⟩
            · rw [hmem]
              refine or_congr Iff.rfl ⟨fun hc => ⟨pool, slots, hpool, hslots, hc⟩, ?_⟩
              rintro ⟨pool', slots', hpool', hslots', hc⟩
              rw [hpool, Option.some.injEq] at hpool'
              rw [hslots, Except.ok.injEq] at hslots'
              subst hpool' hslots'
              exact hc
            · exact ⟨hs.nodup, fun c hc => List.lookup_setdefault_of_some (hs.pools c hc), hs.accounts, hs.keys⟩

theorem addEntries_ok (h : entries.foldlM (Registry.addEntry str configured) s = .ok s') :
    (∀ e ∈ entries, e.Accepted str configured) ∧
      (∀ c, c ∈ s'.credentials ↔ c ∈ s.credentials ∨ ∃ e ∈ entries, e.Lists str configured c) ∧
      (s.Sound → s'.Sound) := by
  induction entries generalizing s with
  | nil =>
    obtain rfl : s = s' := Except.ok.inj h
    exact ⟨by simp, by simp, id⟩
  | cons e entries ih =>
    rw [List.foldlM_cons] at h
    cases hstep : s.addEntry str configured e with
    | error err =>
      rw [hstep] at h
      cases h
    | ok t =>
      rw [hstep] at h
      obtain ⟨haccepted, hmem, hsound⟩ := addEntry_ok hstep
      obtain ⟨hrest, hmem', hsound'⟩ := ih h
      refine ⟨List.forall_mem_cons.2 ⟨haccepted, hrest⟩, fun c => ?_, fun hs => hsound' (hsound hs)⟩
      rw [hmem', hmem, List.exists_mem_cons_iff, or_assoc]

theorem Registry.empty_sound : Registry.empty.Sound :=
  ⟨List.nodup_nil, by simp [empty], by simp [empty], by simp [empty]⟩

/-- The credentials are those that the entries list. -/
theorem mem_credentials_iff {raw : RawAccounts} {cs : List ApiCredential} (h : configuredApiCredentials str raw = .ok cs)
    (hentries : raw.normalized str = .ok entries) :
    (∀ e ∈ entries, e.Accepted str (configuredKeys entries)) ∧
      (∀ c, c ∈ cs ↔ ∃ e ∈ entries, e.Lists str (configuredKeys entries) c) ∧
      ∃ s : Registry, s.Sound ∧ s.credentials = cs := by
  rw [configuredApiCredentials, hentries] at h
  simp only [bind, Except.bind] at h
  cases hfold : entries.foldlM (Registry.addEntry str (configuredKeys entries)) .empty with
  | error err =>
    rw [hfold] at h
    cases h
  | ok s =>
    rw [hfold] at h
    obtain rfl : s.credentials = cs := Except.ok.inj h
    obtain ⟨haccepted, hmem, hsound⟩ := addEntries_ok hfold
    refine ⟨haccepted, fun c => ?_, s, hsound Registry.empty_sound, rfl⟩
    rw [hmem]
    simp [Registry.empty]

/-! ## Unambiguous credentials -/

/-- An account is in one pool, a key and an identifier are in one credential,
    no account and no identifier contains a key, and every key is there. -/
structure Unambiguous (entries : List NormalizedEntry) (cs : List ApiCredential) : Prop where
  nodup : cs.Nodup
  pools : ∀ c ∈ cs, ∀ c' ∈ cs, c.accountId = c'.accountId → c.pool = c'.pool
  keys : ∀ c ∈ cs, ∀ c' ∈ cs, c.apiKey = c'.apiKey → c = c'
  ids : ∀ c ∈ cs, ∀ c' ∈ cs, c.credentialId = c'.credentialId → c = c'
  secret : ∀ c ∈ cs, ∀ k ∈ configuredKeys entries, ¬ k <:+: c.accountId ∧ ¬ k <:+: c.credentialId
  complete : ∀ e ∈ entries, ∀ k ∈ e.apiKeys, ∃ c ∈ cs, c.apiKey = k

/-- The identifier of a key: the one that is given, or the one derived. -/
def listedId (str : PyJson → PyStr) (slot : PyStr × Option PyJson) : Configured PyStr :=
  match slot.2 with
  | none => derivedCredentialId slot.1
  | some v => .ok (strippedText str (some v))

/-- A key of an entry. -/
def Slot (entries : List NormalizedEntry) (slot : PyStr × Option PyJson) : Prop :=
  ∃ e ∈ entries, ∃ slots, e.slots = .ok slots ∧ slot ∈ slots

/-- No key is listed with two identifiers. -/
def SingleIds (str : PyJson → PyStr) (entries : List NormalizedEntry) : Prop :=
  ∀ slot slot', Slot entries slot → Slot entries slot' → slot.1 = slot'.1 → listedId str slot = listedId str slot'

/-- No identifier that is derived for an entry contains a key. -/
def DerivedSafe (entries : List NormalizedEntry) : Prop :=
  ∀ key id, Slot entries (key, none) → derivedCredentialId key = .ok id → ∀ k ∈ configuredKeys entries, ¬ k <:+: id

theorem credentialId_ok {key id : PyStr} {given : Option PyJson} (h : credentialId str configured key given = .ok id) :
    listedId str (key, given) = .ok id ∧ (given ≠ none → ∀ k ∈ configured, ¬ k <:+: id) := by
  unfold credentialId at h
  split at h
  · cases h
  · next derived hderived =>
    obtain rfl := Except.ok.inj h
    exact ⟨hderived, fun hnone => absurd rfl hnone⟩
  · next v _ =>
    dsimp only at h
    split at h
    · cases h
    · split at h
      · cases h
      · next hsecret =>
        obtain rfl := Except.ok.inj h
        exact ⟨rfl, fun _ k hk hin => hsecret (List.any_eq_true.2 ⟨k, hk, decide_eq_true hin⟩)⟩

theorem slots_keys {e : NormalizedEntry} (h : e.slots = .ok slots) : slots.map (·.1) = e.apiKeys := by
  unfold NormalizedEntry.slots at h
  split at h
  · obtain rfl := Except.ok.inj h
    simp [Function.comp_def]
  · obtain rfl := Except.ok.inj h
    simp [Function.comp_def]
  · next ids _ =>
    split at h
    · cases h
    · next hlength =>
      obtain rfl := Except.ok.inj h
      rw [List.map_fst_zip]
      simp [not_not.1 hlength]
  · cases h

/-- **What is accepted is unambiguous, if and only if no key is listed with two
    identifiers and no derived one contains a key.** -/
theorem unambiguous_iff (str : PyJson → PyStr) (raw : RawAccounts) (entries : List NormalizedEntry) (cs : List ApiCredential)
    (h : configuredApiCredentials str raw = .ok cs) (hentries : raw.normalized str = .ok entries) :
    Unambiguous entries cs ↔ SingleIds str entries ∧ DerivedSafe entries := by
  obtain ⟨haccepted, hmem, s, hs, rfl⟩ := mem_credentials_iff h hentries
  have hslot {slot : PyStr × Option PyJson} (hslot : Slot entries slot) : ∃ c ∈ s.credentials, c.apiKey = slot.1 ∧
      listedId str slot = .ok c.credentialId := by
    obtain ⟨e, he, slots, hslots, hin⟩ := hslot
    obtain ⟨-, pool, slots', hpool, hslots', hall⟩ := haccepted e he
    rw [hslots, Except.ok.injEq] at hslots'
    subst hslots'
    obtain ⟨c, hc⟩ := hall slot hin
    exact ⟨c, (hmem c).2 ⟨e, he, pool, slots, hpool, hslots, slot, hin, hc⟩, hc.2.2.1, (credentialId_ok hc.2.2.2).1⟩
  have hcredential {c : ApiCredential} (hc : c ∈ s.credentials) : (∀ k ∈ configuredKeys entries, ¬ k <:+: c.accountId) ∧
      ∃ slot, Slot entries slot ∧ slot.1 = c.apiKey ∧ listedId str slot = .ok c.credentialId ∧
        (slot.2 ≠ none → ∀ k ∈ configuredKeys entries, ¬ k <:+: c.credentialId) := by
    obtain ⟨e, he, pool, slots, -, hslots, slot, hin, haccount, -, hkey, hid⟩ := (hmem c).1 hc
    have hid := credentialId_ok hid
    exact ⟨haccount ▸ (haccepted e he).1, slot, ⟨e, he, slots, hslots, hin⟩, hkey.symm, hid⟩
  constructor
  · intro hun
    constructor
    · intro slot slot' h h' hkey
      obtain ⟨c, hc, hckey, hcid⟩ := hslot h
      obtain ⟨c', hc', hckey', hcid'⟩ := hslot h'
      rw [hcid, hcid', hun.keys c hc c' hc' (by rw [hckey, hckey', hkey])]
    · intro key id h hderived k hk
      obtain ⟨c, hc, -, hcid⟩ := hslot h
      obtain rfl : id = c.credentialId := Except.ok.inj (hderived.symm.trans hcid)
      exact (hun.secret c hc k hk).2
  · rintro ⟨hsingle, hderived⟩
    have heq {c c' : ApiCredential} (hc : c ∈ s.credentials) (hc' : c' ∈ s.credentials) (hkey : c.apiKey = c'.apiKey)
        (hid : c.credentialId = c'.credentialId) : c = c' := by
      have haccount : c.accountId = c'.accountId :=
        Option.some.inj ((hs.accounts c hc).symm.trans (hkey ▸ hs.accounts c' hc'))
      have hpool : c.pool = c'.pool := Option.some.inj ((hs.pools c hc).symm.trans (haccount ▸ hs.pools c' hc'))
      cases c
      cases c'
      simp only at hkey hid haccount hpool
      rw [hkey, hid, haccount, hpool]
    refine ⟨hs.nodup, fun c hc c' hc' haccount => ?_, fun c hc c' hc' hkey => ?_, fun c hc c' hc' hid => ?_,
      fun c hc k hk => ?_, fun e he k hk => ?_⟩
    · exact Option.some.inj ((hs.pools c hc).symm.trans (haccount ▸ hs.pools c' hc'))
    · obtain ⟨-, slot, hin, hslotkey, hslotid, -⟩ := hcredential hc
      obtain ⟨-, slot', hin', hslotkey', hslotid', -⟩ := hcredential hc'
      have hsame := hsingle slot slot' hin hin' (by rw [hslotkey, hslotkey', hkey])
      rw [hslotid, hslotid', Except.ok.injEq] at hsame
      exact heq hc hc' hkey hsame
    · exact heq hc hc' (Option.some.inj ((hs.keys c hc).symm.trans (hid ▸ hs.keys c' hc'))) hid
    · obtain ⟨haccount, ⟨key, given⟩, hin, -, hslotid, hgiven⟩ := hcredential hc
      refine ⟨haccount k hk, ?_⟩
      cases given with
      | none => exact hderived key _ hin hslotid k hk
      | some v => exact hgiven (by simp) k hk
    · obtain ⟨-, pool, slots, hpool, hslots, -⟩ := haccepted e he
      rw [← slots_keys hslots, List.mem_map] at hk
      obtain ⟨slot, hin, rfl⟩ := hk
      obtain ⟨c, hc, hckey, -⟩ := hslot ⟨e, he, slots, hslots, hin⟩
      exact ⟨c, hc, hckey⟩

/-! ## One account -/

/-- An account with keys, and identifiers for them. -/
def sampleAccounts (keys ids : List String) : RawAccounts :=
  .json (.list [.dict [(PyStr.of "account_id", .str (PyStr.of "account")), (PyStr.of "pool", .str (PyStr.of "ROUTINE")),
    (PyStr.of "api_keys", .list (keys.map fun k => .str (PyStr.of k))),
    (PyStr.of "credential_ids", .list (ids.map fun id => .str (PyStr.of id)))]])

def sampleEntries (keys ids : List String) : List NormalizedEntry :=
  [⟨[(PyStr.of "account_id", .str (PyStr.of "account")), (PyStr.of "pool", .str (PyStr.of "ROUTINE")),
    (PyStr.of "api_keys", .list (keys.map fun k => .str (PyStr.of k))),
    (PyStr.of "credential_ids", .list (ids.map fun id => .str (PyStr.of id)))], keys.map PyStr.of⟩]

def sampleCredential (key id : String) : ApiCredential := ⟨PyStr.of "account", .routine, PyStr.of key, PyStr.of id⟩

/-- Two keys with identifiers. -/
theorem unambiguous_two_keys :
    Unambiguous (sampleEntries ["first", "second"] ["1", "2"]) [sampleCredential "first" "1", sampleCredential "second" "2"] ↔
      SingleIds (fun _ => []) (sampleEntries ["first", "second"] ["1", "2"]) ∧
        DerivedSafe (sampleEntries ["first", "second"] ["1", "2"]) :=
  unambiguous_iff (fun _ => []) (sampleAccounts ["first", "second"] ["1", "2"]) _ _ (by decide) rfl

/-- **One key with two identifiers is accepted.** -/
theorem ambiguous_key : ∃ entries cs,
    configuredApiCredentials (fun _ => []) (sampleAccounts ["key", "key"] ["1", "2"]) = .ok cs ∧
      (sampleAccounts ["key", "key"] ["1", "2"]).normalized (fun _ => []) = .ok entries ∧ ¬ Unambiguous entries cs := by
  refine ⟨sampleEntries ["key", "key"] ["1", "2"], [sampleCredential "key" "1", sampleCredential "key" "2"],
    by decide, rfl, fun hun => ?_⟩
  have heq := hun.keys (sampleCredential "key" "1") (by simp) (sampleCredential "key" "2") (by simp) rfl
  revert heq
  decide

end Xauusd.Credentials
