/-
Every run of stores on a database.

The values that are there were sealed under the key of the open store (`Host.Inv`):
opening checks that all of them decrypt, and a cipher decrypts nothing under another key.
-/
import AgentSpace.Config.Secrets

set_option autoImplicit false

namespace AgentSpace.Config

open Text Lib

/-! ## What is sealed -/

section Sealed

variable {ciphers : Ciphers}

/-- The bytes are the value, sealed under the key. -/
def IsSealed (ciphers : Ciphers) (key : MasterKey) (value : Text) (sealed : List UInt8) : Prop :=
  ∃ (nonce : Nonce) (ciphertext : List UInt8),
    ciphers.seal_in_place key nonce (as_bytes value) = some ciphertext
      ∧ sealed = nonce.val ++ ciphertext

variable {key : MasterKey} {sealed : List UInt8}

theorem isSealed_of_seal {conditions : Conditions} {value : Text}
    (h : MasterKey.seal ciphers key conditions value = .ok sealed) : IsSealed ciphers key value sealed := by
  unfold MasterKey.seal at h
  cases hnonce : conditions.nonce with
  | none => rw [hnonce] at h; cases h
  | some nonce =>
    rw [hnonce] at h
    simp only [ok_or_some, bind, Except.bind] at h
    cases hseal : ciphers.seal_in_place key nonce (as_bytes value) with
    | none => rw [hseal] at h; cases h
    | some ciphertext =>
      rw [hseal] at h
      exact ⟨nonce, ciphertext, hseal, (Except.ok.inj h).symm⟩

/-- Opening takes off the nonce. -/
theorem open_append (key : MasterKey) (nonce : Nonce) (ciphertext : List UInt8) :
    MasterKey.open ciphers key (nonce.val ++ ciphertext) = (do
      let plaintext ← ok_or (ciphers.open_in_place key nonce ciphertext) .Crypto
      ok_or (string_from_utf8 plaintext) .Crypto) := by
  have hlength : ¬ (nonce.val ++ ciphertext).length < NONCE_LEN := by
    rw [List.length_append, nonce.property]
    omega
  have hnonce : (nonce.val ++ ciphertext).take NONCE_LEN = nonce.val :=
    List.take_left' nonce.property
  have hrest : (nonce.val ++ ciphertext).drop NONCE_LEN = ciphertext :=
    List.drop_left' nonce.property
  unfold MasterKey.open
  rw [dif_neg hlength]
  simp only [hnonce, hrest]

theorem IsSealed.open (h : ciphers.Lawful) {value : Text}
    (hsealed : IsSealed ciphers key value sealed) : MasterKey.open ciphers key sealed = .ok value := by
  obtain ⟨nonce, ciphertext, hseal, rfl⟩ := hsealed
  rw [open_append, h.round_trip hseal, ok_or_some]
  simp only [bind, Except.bind]
  rw [string_from_utf8_as_bytes, ok_or_some]

/-- What is sealed under a key opens under no other. -/
theorem IsSealed.key_eq (h : ciphers.Lawful) {key key' : MasterKey} {value text : Text}
    (hsealed : IsSealed ciphers key value sealed)
    (hopen : MasterKey.open ciphers key' sealed = .ok text) : key = key' := by
  obtain ⟨nonce, ciphertext, hseal, rfl⟩ := hsealed
  rw [open_append] at hopen
  cases hplain : ciphers.open_in_place key' nonce ciphertext with
  | none => rw [hplain] at hopen; cases hopen
  | some plaintext => exact (h.own_key hseal hplain).symm

/-- The sealed values are those that the history tells. -/
def Matches (ciphers : Ciphers) (place : Place) (values : SealedValues) (history : List Entry) : Prop :=
  ∀ name, match last_set place name history with
    | none => values[name]? = none
    | some (value, key) => ∃ sealed, values[name]? = some sealed ∧ IsSealed ciphers key value sealed

variable {place : Place} {values : SealedValues} {history : List Entry}

theorem Matches.getElem? (h : Matches ciphers place values history) {name : Text}
    (hname : values[name]? = some sealed) :
    ∃ value key, last_set place name history = some (value, key)
      ∧ IsSealed ciphers key value sealed := by
  have hmatch := h name
  cases hlast : last_set place name history with
  | none =>
    rw [hlast, hname] at hmatch
    cases hmatch
  | some entry =>
    rw [hlast] at hmatch
    obtain ⟨sealed', hname', hsealed⟩ := hmatch
    rw [hname] at hname'
    rw [Option.some.inj hname']
    exact ⟨_, _, rfl, hsealed⟩

theorem Matches.last_set (h : Matches ciphers place values history) {name value : Text}
    (hlast : last_set place name history = some (value, key)) :
    ∃ sealed, values[name]? = some sealed ∧ IsSealed ciphers key value sealed := by
  have hmatch := h name
  rw [hlast] at hmatch
  exact hmatch

theorem Matches.set (h : Matches ciphers place values history) {name value : Text}
      (hsealed : IsSealed ciphers key value sealed) :
    Matches ciphers place (values.insert name sealed) (.set place name value key :: history) := by
  intro other
  rw [Config.last_set]
  by_cases hname : name = other
  · rw [if_pos ⟨rfl, hname⟩]
    exact ⟨sealed, by simp [hname], hsealed⟩
  · rw [if_neg fun h => hname h.2]
    have hother : (values.insert name sealed)[other]? = values[other]? := by
      rw [Std.ExtTreeMap.getElem?_insert, if_neg]
      exact fun heq => hname (Std.LawfulEqCmp.eq_of_compare heq)
    rw [hother]
    exact h other

theorem Matches.cleared (h : Matches ciphers place values history) (name : Text) :
    Matches ciphers place (values.erase name) (.cleared place name :: history) := by
  intro other
  rw [Config.last_set]
  by_cases hname : name = other
  · rw [if_pos ⟨rfl, hname⟩]
    simp [hname]
  · rw [if_neg fun h => hname h.2]
    have hother : (values.erase name)[other]? = values[other]? := by
      rw [Std.ExtTreeMap.getElem?_erase, if_neg]
      exact fun heq => hname (Std.LawfulEqCmp.eq_of_compare heq)
    rw [hother]
    exact h other

/-- What happens elsewhere does not matter. -/
theorem Matches.elsewhere
    (h : Matches ciphers place values history) {entry : Entry}
    (hentry : ∀ name, Config.last_set place name (entry :: history)
      = Config.last_set place name history) : Matches ciphers place values (entry :: history) := by
  intro name
  rw [hentry name]
  exact h name

end Sealed

/-! ## What the calls do -/

namespace SecretStore

variable {ciphers : Ciphers} {store : SecretStore} {conditions : Conditions} {rows : SealedValues}

variable (next : SealedValues)

@[simp] theorem values_write : (store.write rows next).1.values (store.write rows next).2 = next := by
  obtain ⟨_ | _, key, writable⟩ := store <;> rfl

@[simp] theorem place_write : (store.write rows next).1.place = store.place := by
  obtain ⟨_ | _, key, writable⟩ := store <;> rfl

@[simp] theorem master_key_write : (store.write rows next).1.master_key = store.master_key := by
  obtain ⟨_ | _, key, writable⟩ := store <;> rfl

/-- The rows of the database change only with a store on it. -/
theorem rows_write (store : SecretStore) (rows next : SealedValues) :
    (store.place = .database ∧ (store.write rows next).2 = next ∧ store.values rows = rows)
      ∨ (store.place = .memory ∧ (store.write rows next).2 = rows) := by
  unfold write place values
  cases store.backend with
  | InMemory map => exact .inr ⟨rfl, rfl⟩
  | Sqlite => exact .inl ⟨rfl, rfl, rfl⟩

/-- Setting a value seals it under the key, or fails and changes nothing. -/
theorem set_value_cases (name value : Text) :
    (∃ e, store.set_value ciphers conditions rows name value = (.error e, store, rows))
      ∨ ∃ sealed, IsSealed ciphers store.master_key value sealed
        ∧ store.set_value ciphers conditions rows name value
          = (.ok (), store.write rows ((store.values rows).insert name sealed)) := by
  unfold set_value
  by_cases hwritable : (!store.writable) = true
  · rw [if_pos hwritable]
    exact .inl ⟨_, rfl⟩
  · rw [if_neg hwritable]
    cases hseal : MasterKey.seal ciphers store.master_key conditions value with
    | error e => exact .inl ⟨e, rfl⟩
    | ok sealed =>
      dsimp only
      cases store.reach conditions with
      | error e => exact .inl ⟨e, rfl⟩
      | ok u => exact .inr ⟨sealed, isSealed_of_seal hseal, rfl⟩

/-- Clearing a value removes it, or fails and changes nothing. -/
theorem clear_value_cases (name : Text) :
    (∃ e, store.clear_value conditions rows name = (.error e, store, rows))
      ∨ ∃ there, store.clear_value conditions rows name
          = (.ok there, store.write rows ((store.values rows).erase name)) := by
  unfold clear_value
  cases store.reach conditions with
  | error e => exact .inl ⟨e, rfl⟩
  | ok u => exact .inr ⟨_, rfl⟩

theorem verify_all_decrypt_eq_ok {key : MasterKey} :
    verify_all_decrypt ciphers rows key = .ok ()
      ↔ ∀ (name : Text) (sealed : List UInt8), rows[name]? = some sealed →
        ∃ text, MasterKey.open ciphers key sealed = .ok text := by
  have hok : ∀ sealed, (MasterKey.open ciphers key sealed).isOk = true
      ↔ ∃ text, MasterKey.open ciphers key sealed = .ok text := by
    intro sealed
    cases MasterKey.open ciphers key sealed with
    | error e => exact iff_of_false Bool.false_ne_true fun ⟨_, h⟩ => (nomatch h)
    | ok text => exact iff_of_true rfl ⟨text, rfl⟩
  have hall : (rows.toList.all fun row => (MasterKey.open ciphers key row.2).isOk) = true
      ↔ ∀ (name : Text) (sealed : List UInt8), rows[name]? = some sealed →
        ∃ text, MasterKey.open ciphers key sealed = .ok text := by
    rw [List.all_eq_true]
    constructor
    · intro h name sealed hname
      exact (hok sealed).1 (h _ (Std.ExtTreeMap.mem_toList_iff_getElem?_eq_some.2 hname))
    · intro h row hrow
      exact (hok row.2).2 (h _ _ (Std.ExtTreeMap.mem_toList_iff_getElem?_eq_some.1 hrow))
  rw [← hall]
  unfold verify_all_decrypt
  split_ifs with h
  · exact iff_of_true rfl h
  · exact iff_of_false (fun h => (nomatch h)) h

theorem open_memory {env : TextMap}
    (h : SecretStore.open ciphers conditions none env = .ok store) : store.backend = .InMemory ∅ := by
  unfold SecretStore.open at h
  cases hconfigured : configured ciphers env with
  | error e => rw [hconfigured] at h; cases h
  | ok key =>
    rw [hconfigured] at h
    cases key with
    | some key => rw [← Except.ok.inj h]
    | none =>
      cases hgenerate : MasterKey.generate conditions with
      | error e => simp [bind, Except.bind, hgenerate] at h
      | ok key =>
        simp only [bind, Except.bind, hgenerate] at h
        rw [← Except.ok.inj h]

/-- **What opens on a database**: a configured key under which all of its values decrypt,
or, if it has none, no key. -/
theorem open_database {env : TextMap}
    (h : SecretStore.open ciphers conditions (some rows) env = .ok store) :
    store.backend = .Sqlite
      ∧ ∀ (name : Text) (sealed : List UInt8), rows[name]? = some sealed →
        ∃ text, MasterKey.open ciphers store.master_key sealed = .ok text := by
  unfold SecretStore.open at h
  cases hconfigured : configured ciphers env with
  | error e => rw [hconfigured] at h; cases h
  | ok key =>
    rw [hconfigured] at h
    simp only [bind, Except.bind] at h
    cases hsql : conditions.sql with
    | some detail => rw [hsql] at h; cases h
    | none =>
      rw [hsql] at h
      cases key with
      | some key =>
        dsimp only at h
        cases hverify : verify_all_decrypt ciphers rows key with
        | error e => rw [hverify] at h; cases h
        | ok u =>
          rw [hverify] at h
          obtain rfl := Except.ok.inj h
          exact ⟨rfl, verify_all_decrypt_eq_ok.1 hverify⟩
      | none =>
        dsimp only at h
        by_cases hsize : 0 < rows.size
        · rw [if_pos hsize] at h
          cases h
        · rw [if_neg hsize] at h
          cases hgenerate : MasterKey.generate conditions with
          | error e => rw [hgenerate] at h; cases h
          | ok key =>
            rw [hgenerate] at h
            obtain rfl := Except.ok.inj h
            refine ⟨rfl, fun name sealed hname => ?_⟩
            have hempty : rows = ∅ := by
              rw [← Std.ExtTreeMap.isEmpty_iff, Std.ExtTreeMap.isEmpty_eq_size_beq_zero]
              simpa using hsize
            rw [hempty] at hname
            simp at hname

end SecretStore

/-! ## Every run -/

section Runs

variable {ciphers : Ciphers}

/-- The database matches the history, and so does the open store, all under its key. -/
structure Host.Inv (ciphers : Ciphers) (host : Host) : Prop where
  database : Matches ciphers .database host.rows host.history
  own : ∀ store, host.store = some store →
    Matches ciphers store.place (store.values host.rows) host.history
  one_key : ∀ store, host.store = some store → ∀ name value key,
    last_set store.place name host.history = some (value, key) → key = store.master_key

variable {host : Host}

/-- A store writes other values, and an entry says so. -/
theorem Host.Inv.write (hinv : host.Inv ciphers) {store : SecretStore} {next : SealedValues} {entry : Entry}
    (hmatch : Matches ciphers store.place next (entry :: host.history))
    (helsewhere : store.place = .memory → ∀ name, last_set .database name (entry :: host.history)
      = last_set .database name host.history)
    (hkey : ∀ name value key, last_set store.place name (entry :: host.history) = some (value, key) →
      key = store.master_key) :
    Host.Inv ciphers ⟨(store.write host.rows next).2, some (store.write host.rows next).1,
      entry :: host.history⟩ := by
  refine ⟨?_, ?_, ?_⟩
  · dsimp only
    rcases store.rows_write host.rows next with ⟨hplace, hrows, -⟩ | ⟨hplace, hrows⟩
    · rw [hrows, ← hplace]
      exact hmatch
    · rw [hrows]
      exact hinv.database.elsewhere (helsewhere hplace)
  · rintro other ⟨⟩
    rw [SecretStore.place_write, SecretStore.values_write]
    exact hmatch
  · rintro other ⟨⟩
    rw [SecretStore.place_write, SecretStore.master_key_write]
    exact hkey

theorem Step.inv (hlawful : ciphers.Lawful) {host host' : Host} {label : Call × Conditions}
    (hinv : host.Inv ciphers) (h : Step ciphers host label host') : host'.Inv ciphers := by
  cases h with
  | @opened persistent env conditions store hclosed h =>
    cases persistent with
    | true =>
      obtain ⟨hbackend, hdecrypt⟩ := SecretStore.open_database h
      have hplace : store.place = .database := by
        unfold SecretStore.place
        rw [hbackend]
      have hvalues : store.values host.rows = host.rows := by
        unfold SecretStore.values
        rw [hbackend]
      refine ⟨hinv.database, ?_, ?_⟩
      · rintro other ⟨⟩
        rw [hplace, hvalues]
        exact hinv.database
      · rintro other ⟨⟩ name value key hlast
        rw [hplace] at hlast
        obtain ⟨sealed, hname, hsealed⟩ := hinv.database.last_set hlast
        obtain ⟨text, hopen⟩ := hdecrypt name sealed hname
        exact hsealed.key_eq hlawful hopen
    | false =>
      have hbackend := SecretStore.open_memory h
      have hplace : store.place = .memory := by
        unfold SecretStore.place
        rw [hbackend]
      have hvalues : store.values host.rows = ∅ := by
        unfold SecretStore.values
        rw [hbackend]
      refine ⟨hinv.database.elsewhere fun _ => rfl, ?_, ?_⟩
      · rintro other ⟨⟩ name
        rw [hplace, hvalues]
        simp [last_set]
      · rintro other ⟨⟩ name value key hlast
        rw [hplace] at hlast
        cases hlast
  | not_opened hclosed h => exact hinv
  | @set_value store store' name value conditions result rows' hopen h =>
    rcases SecretStore.set_value_cases name value with ⟨e, hresult⟩ | ⟨sealed, hsealed, hresult⟩
    · rw [hresult] at h
      obtain ⟨rfl, rfl, rfl⟩ : .error e = result ∧ store = store' ∧ host.rows = rows' := by
        simpa using h
      exact ⟨hinv.database, fun other heq => hinv.own other (hopen.trans heq),
        fun other heq => hinv.one_key other (hopen.trans heq)⟩
    · rw [hresult] at h
      obtain ⟨rfl, rfl, rfl⟩ : .ok () = result ∧ (store.write host.rows _).1 = store'
          ∧ (store.write host.rows _).2 = rows' := by simpa [Prod.ext_iff] using h
      refine hinv.write ((hinv.own store hopen).set hsealed) (fun hplace other => ?_)
        fun other text key hlast => ?_
      · rw [last_set, if_neg]
        rintro ⟨hdatabase, -⟩
        rw [hplace] at hdatabase
        cases hdatabase
      · rw [last_set] at hlast
        by_cases hname : store.place = store.place ∧ name = other
        · rw [if_pos hname] at hlast
          cases hlast
          rfl
        · rw [if_neg hname] at hlast
          exact hinv.one_key store hopen other text key hlast
  | @clear_value store store' name conditions result rows' hopen h =>
    rcases SecretStore.clear_value_cases name with ⟨e, hresult⟩ | ⟨there, hresult⟩
    · rw [hresult] at h
      obtain ⟨rfl, rfl, rfl⟩ : .error e = result ∧ store = store' ∧ host.rows = rows' := by
        simpa using h
      exact ⟨hinv.database, fun other heq => hinv.own other (hopen.trans heq),
        fun other heq => hinv.one_key other (hopen.trans heq)⟩
    · rw [hresult] at h
      obtain ⟨rfl, rfl, rfl⟩ : .ok there = result ∧ (store.write host.rows _).1 = store'
          ∧ (store.write host.rows _).2 = rows' := by simpa [Prod.ext_iff] using h
      refine hinv.write ((hinv.own store hopen).cleared name) (fun hplace other => ?_)
        fun other text key hlast => ?_
      · rw [last_set, if_neg]
        rintro ⟨hdatabase, -⟩
        rw [hplace] at hdatabase
        cases hdatabase
      · rw [last_set] at hlast
        by_cases hname : store.place = store.place ∧ name = other
        · rw [if_pos hname] at hlast
          cases hlast
        · rw [if_neg hname] at hlast
          exact hinv.one_key store hopen other text key hlast
  | close =>
    refine ⟨hinv.database, ?_, ?_⟩
    · rintro store ⟨⟩
    · rintro store ⟨⟩

/-- What the store reads is what the history tells. -/
theorem Host.Inv.reads (hlawful : ciphers.Lawful) (hinv : host.Inv ciphers)
    {store : SecretStore} (hopen : host.store = some store) {conditions : Conditions}
    (hreach : store.reach conditions = .ok ()) : (∀ name, store.resolve ciphers conditions host.rows name
        = .ok (last_value store.place name host.history))
      ∧ ∃ names, store.set_names conditions host.rows = .ok names
        ∧ ∀ name, name ∈ names ↔ last_value store.place name host.history ≠ none := by
  have hmatch := hinv.own store hopen
  refine ⟨fun name => ?_, (store.values host.rows).keys, ?_, fun name => ?_⟩
  · unfold SecretStore.resolve last_value
    rw [hreach]
    simp only [bind, Except.bind]
    cases hlast : last_set store.place name host.history with
    | none =>
      have hnone := hmatch name
      rw [hlast] at hnone
      rw [hnone]
      rfl
    | some entry =>
      obtain ⟨value, key⟩ := entry
      obtain ⟨sealed, hname, hsealed⟩ := hmatch.last_set hlast
      obtain rfl := hinv.one_key store hopen name value key hlast
      rw [hname]
      dsimp only
      rw [hsealed.open hlawful]
      rfl
  · unfold SecretStore.set_names
    rw [hreach]
    rfl
  · rw [Std.ExtTreeMap.mem_keys, Std.ExtTreeMap.mem_iff_isSome_getElem?, Option.isSome_iff_ne_none,
      not_iff_not, last_value, Option.map_eq_none_iff]
    have hname := hmatch name
    cases hlast : last_set store.place name host.history with
    | none =>
      rw [hlast] at hname
      exact iff_of_true hname rfl
    | some entry =>
      obtain ⟨sealed, hname, -⟩ := hmatch.last_set hlast
      rw [hname]
      exact iff_of_false (Option.some_ne_none _) (Option.some_ne_none _)

/-- Where nothing fails, a store opens on a database with the key of its values, and with
any key or none if there are no values. -/
theorem Host.Inv.opens (hlawful : ciphers.Lawful) (hinv : host.Inv ciphers)
    {conditions : Conditions} {env : TextMap} {configured : Option MasterKey}
    (hconfigured : SecretStore.configured ciphers env = .ok configured)
    (hsql : conditions.sql = none) (hgenerated : conditions.generated ≠ none) :
    (∃ store, SecretStore.open ciphers conditions (some host.rows) env = .ok store)
      ↔ (∀ name, last_value .database name host.history = none)
        ∨ ∃ key, configured = some key ∧ ∀ name value written,
          last_set .database name host.history = some (value, written) → written = key := by
  obtain ⟨generated, hgenerated⟩ := Option.ne_none_iff_exists'.1 hgenerated
  have hnone : (∀ name, last_value .database name host.history = none) ↔ host.rows = ∅ := by
    constructor
    · intro h
      refine Std.ExtTreeMap.ext_getElem? fun name => ?_
      have hname := hinv.database name
      rw [Option.map_eq_none_iff.1 (h name)] at hname
      simpa using hname
    · intro h name
      unfold last_value
      cases hlast : last_set .database name host.history with
      | none => rfl
      | some entry =>
        obtain ⟨sealed, hname, -⟩ := hinv.database.last_set hlast
        rw [h] at hname
        simp at hname
  unfold SecretStore.open
  rw [hconfigured]
  simp only [bind, Except.bind, hsql]
  cases configured with
  | some key =>
    have hverify : SecretStore.verify_all_decrypt ciphers host.rows key = .ok ()
        ↔ ∀ name value written,
          last_set .database name host.history = some (value, written) → written = key := by
      rw [SecretStore.verify_all_decrypt_eq_ok]
      constructor
      · intro h name value written hlast
        obtain ⟨sealed, hname, hsealed⟩ := hinv.database.last_set hlast
        obtain ⟨text, hopen⟩ := h name sealed hname
        exact hsealed.key_eq hlawful hopen
      · intro h name sealed hname
        obtain ⟨value, written, hlast, hsealed⟩ := hinv.database.getElem? hname
        obtain rfl := h name value written hlast
        exact ⟨value, hsealed.open hlawful⟩
    have hright : (∀ name, last_value .database name host.history = none) →
        ∀ name value written,
          last_set .database name host.history = some (value, written) → written = key := by
      intro h name value written hlast
      have hname := h name
      unfold last_value at hname
      rw [hlast] at hname
      cases hname
    dsimp only
    constructor
    · rintro ⟨store, h⟩
      cases hresult : SecretStore.verify_all_decrypt ciphers host.rows key with
      | error e => rw [hresult] at h; cases h
      | ok u => exact .inr ⟨key, rfl, hverify.1 hresult⟩
    · intro h
      have hkeys : SecretStore.verify_all_decrypt ciphers host.rows key = .ok () := by
        rcases h with h | ⟨other, ⟨⟩, h⟩
        · exact hverify.2 (hright h)
        · exact hverify.2 h
      exact ⟨_, by rw [hkeys]⟩
  | none =>
    dsimp only
    have hsize : ¬ 0 < host.rows.size ↔ host.rows = ∅ := by
      rw [← Std.ExtTreeMap.isEmpty_iff, Std.ExtTreeMap.isEmpty_eq_size_beq_zero]
      simp
    constructor
    · rintro ⟨store, h⟩
      refine .inl (hnone.2 (hsize.1 fun hpositive => ?_))
      rw [if_pos hpositive] at h
      cases h
    · intro h
      have hempty : host.rows = ∅ := by
        rcases h with h | ⟨key, ⟨⟩, -⟩
        exact hnone.1 h
      refine ⟨⟨.Sqlite, generated, false⟩, ?_⟩
      rw [if_neg (hsize.2 hempty), MasterKey.generate, hgenerated]
      rfl

end Runs

/-- **No value is stranded or mixed up.** Whatever stores have been opened on a database, one
at a time and with whatever keys, and whatever has been set and cleared: every value of the
open store decrypts under its key; where its lock and its statements do not fail, it resolves
each name to the last value that was set for it and not cleared since, and its names are
those; setting or clearing that fails changes nothing; and where nothing fails, in an
environment whose key, if it has one, is not malformed, a store in memory is opened, and one
on the database exactly if it holds no value or the key is the one that its values were set
under. -/
theorem secret_store_faithful (ciphers : Ciphers) (hlawful : ciphers.Lawful)
    (labels : List (Call × Conditions)) (host : Host) (hrun : Run (Step ciphers) ({} : Host) labels host) :
    (∀ store, host.store = some store →
      (∀ (name : Text) (sealed : List UInt8), (store.values host.rows)[name]? = some sealed →
        ∃ text, MasterKey.open ciphers store.master_key sealed = .ok text)
      ∧ (∀ conditions, store.reach conditions = .ok () →
        (∀ name, store.resolve ciphers conditions host.rows name
            = .ok (last_value store.place name host.history))
          ∧ ∃ names, store.set_names conditions host.rows = .ok names
            ∧ ∀ name, name ∈ names ↔ last_value store.place name host.history ≠ none)
      ∧ (∀ conditions name value e store' rows',
        store.set_value ciphers conditions host.rows name value = (.error e, store', rows') →
        store' = store ∧ rows' = host.rows)
      ∧ ∀ conditions name e store' rows',
        store.clear_value conditions host.rows name = (.error e, store', rows') →
        store' = store ∧ rows' = host.rows)
    ∧ ∀ conditions env configured, SecretStore.configured ciphers env = .ok configured →
      conditions.sql = none → conditions.generated ≠ none →
      (∃ store, SecretStore.open ciphers conditions none env = .ok store)
      ∧ ((∃ store, SecretStore.open ciphers conditions (some host.rows) env = .ok store)
        ↔ (∀ name, last_value .database name host.history = none)
          ∨ ∃ key, configured = some key ∧ ∀ name value written,
            last_set .database name host.history = some (value, written) → written = key) := by
  have hstart : Host.Inv ciphers {} := by
    refine ⟨fun name => ?_, fun store h => (nomatch h), fun store h => (nomatch h)⟩
    simp [last_set]
  have hinv : host.Inv ciphers := hrun.invariant (fun _ _ _ hinv h => h.inv hlawful hinv) hstart
  refine ⟨fun store hopen => ⟨fun name sealed hname => ?_, fun conditions hreach => ?_,
    fun conditions name value e store' rows' h => ?_, fun conditions name e store' rows' h => ?_⟩,
    fun conditions env configured hconfigured hsql hgenerated => ?_⟩
  · obtain ⟨value, key, hlast, hsealed⟩ := (hinv.own store hopen).getElem? hname
    obtain rfl := hinv.one_key store hopen name value key hlast
    exact ⟨value, hsealed.open hlawful⟩
  · exact hinv.reads hlawful hopen hreach
  · rcases SecretStore.set_value_cases name value with ⟨e', hresult⟩ | ⟨sealed, -, hresult⟩
    · rw [hresult] at h
      cases h
      exact ⟨rfl, rfl⟩
    · rw [hresult] at h
      cases h
  · rcases SecretStore.clear_value_cases name with ⟨e', hresult⟩ | ⟨there, hresult⟩
    · rw [hresult] at h
      cases h
      exact ⟨rfl, rfl⟩
    · rw [hresult] at h
      cases h
  · refine ⟨?_, hinv.opens hlawful hconfigured hsql hgenerated⟩
    obtain ⟨generated, hgenerated⟩ := Option.ne_none_iff_exists'.1 hgenerated
    unfold SecretStore.open
    rw [hconfigured]
    cases configured with
    | some key => exact ⟨_, rfl⟩
    | none =>
      refine ⟨⟨.InMemory ∅, generated, true⟩, ?_⟩
      simp [bind, Except.bind, MasterKey.generate, hgenerated]

/-! ### A cipher that puts the key first -/

/-- Thirty-two zero bytes. -/
def zero_key : MasterKey := ⟨List.replicate 32 0, rfl⟩

/-- The ciphertext is the plaintext behind the key. Of the encodings, one is known. -/
def key_first : Ciphers where
  decode t := if t = "AAAAAAAAAAAAAAAAAAAAAAAAAAAAAAAAAAAAAAAAAAA=".toList then
    some zero_key.val else none
  seal_in_place key _ plaintext := some (key.val ++ plaintext)
  open_in_place key _ ciphertext :=
    if key.val.isPrefixOf ciphertext then some (ciphertext.drop 32) else none

theorem key_first_lawful : key_first.Lawful where
  round_trip := by
    intro key nonce plaintext ciphertext h
    obtain rfl := Option.some.inj h
    unfold key_first
    dsimp only
    rw [if_pos (by simp), List.drop_left' key.property]
  own_key := by
    intro key key' nonce plaintext plaintext' ciphertext h hopen
    obtain rfl := Option.some.inj h
    unfold key_first at hopen
    dsimp only at hopen
    split_ifs at hopen with hprefix
    have htake := List.prefix_iff_eq_take.1 (List.isPrefixOf_iff_prefix.1 hprefix)
    rw [key'.property, List.take_left' key.property] at htake
    exact Subtype.ext htake

/-- Nothing fails. -/
def fine : Conditions := ⟨some ⟨List.replicate NONCE_LEN 0, rfl⟩, some zero_key, false, none⟩

/-- The environment with a key. -/
def key_env (encoded : String) : TextMap :=
  Std.ExtTreeMap.ofList [(MASTER_KEY_ENV, encoded.toList)] compare

/-- A value is set, and resolved by the next store. -/
theorem secret_store_faithful_reopened :
    let env := key_env "AAAAAAAAAAAAAAAAAAAAAAAAAAAAAAAAAAAAAAAAAAA="
    let labels : List (Call × Conditions) := [(.open true env, fine),
      (.set_value "TOKEN".toList "sk".toList, fine), (.close, fine), (.open true env, fine)]
    ∃ host store, Run (Step key_first) {} labels host ∧ host.store = some store
      ∧ store.resolve key_first fine host.rows "TOKEN".toList = .ok (some "sk".toList) := by
  intro env labels
  let first : SecretStore := ⟨.Sqlite, zero_key, true⟩
  have hclosed : Run (Step key_first) {} (labels.take 3) _ :=
    .cons (@Step.opened _ _ _ _ _ first rfl rfl)
      (.cons (.set_value rfl rfl) (.cons .close (.nil _)))
  obtain ⟨-, hopens⟩ := secret_store_faithful key_first key_first_lawful _ _ hclosed
  have hkey : ∀ name value written,
      last_set .database name [.set .database "TOKEN".toList "sk".toList zero_key]
        = some (value, written) → written = zero_key := by
    intro name value written h
    simp only [last_set] at h
    split_ifs at h
    cases h
    rfl
  obtain ⟨store, hstore⟩ := (hopens fine env (some zero_key) rfl rfl (Option.some_ne_none _)).2.2
    (.inr ⟨zero_key, rfl, hkey⟩)
  have hplace : store.place = .database := by
    unfold SecretStore.place
    rw [(SecretStore.open_database hstore).1]
  have hreach : store.reach fine = .ok () := by
    unfold SecretStore.reach
    rw [(SecretStore.open_database hstore).1]
    rfl
  have hrun := hclosed.snoc (@Step.opened _ _ true env _ _ rfl hstore)
  have hsound := (secret_store_faithful key_first key_first_lawful _ _ hrun).1 store rfl
  refine ⟨_, store, hrun, rfl, ((hsound.2.1 fine hreach).1 "TOKEN".toList).trans ?_⟩
  rw [hplace]
  rfl

/-- A key that is malformed opens no store, also on a database without values. -/
theorem malformed_key_not_opened :
    SecretStore.open key_first fine (some ∅) (key_env "not a key") = .error .InvalidMasterKey := by
  rfl

end AgentSpace.Config
