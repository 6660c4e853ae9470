/-
The secret store: `config/secrets.rs`.

A store seals the values it is given under its master key, and keeps them in memory or in
the rows of a database that outlives it. The ciphers and base64 are parameters, and so is
what happens around a call: the nonce and the key that the generator gives, a statement
that fails, a poisoned lock.
-/
import AgentSpace.Bytes
import AgentSpace.Config.Document
import AgentSpace.Lib.Transition

set_option autoImplicit false

namespace AgentSpace.Config

open Text Lib

/-! ## Keys -/

/-- `SecretStoreError`. -/
inductive SecretStoreError
  | MasterKeyUnavailable
  | InvalidMasterKey
  | Crypto
  | Persistence (detail : Text)
  deriving DecidableEq

/-- `MASTER_KEY_ENV`. -/
def MASTER_KEY_ENV : Text := "CLIENT_SERVICE_SECRET_KEY".toList

/-- `NONCE_LEN`. -/
def NONCE_LEN : ℕ := 12

/-- `MasterKey`: 32 bytes. -/
abbrev MasterKey := {bytes : List UInt8 // bytes.length = 32}

/-- `Nonce`. -/
abbrev Nonce := {bytes : List UInt8 // bytes.length = NONCE_LEN}

/-- AES-256-GCM without additional data, and `BASE64.decode`. -/
structure Ciphers where
  decode : Text → Option (List UInt8)
  seal_in_place : MasterKey → Nonce → List UInt8 → Option (List UInt8)
  open_in_place : MasterKey → Nonce → List UInt8 → Option (List UInt8)

/-- A ciphertext is decrypted under its own key, and under no other. -/
structure Ciphers.Lawful (ciphers : Ciphers) : Prop where
  round_trip : ∀ {key nonce plaintext ciphertext},
    ciphers.seal_in_place key nonce plaintext = some ciphertext →
    ciphers.open_in_place key nonce ciphertext = some plaintext
  own_key : ∀ {key key' nonce plaintext plaintext' ciphertext},
    ciphers.seal_in_place key nonce plaintext = some ciphertext →
    ciphers.open_in_place key' nonce ciphertext = some plaintext' → key' = key

/-- What a call meets: the nonce and the key that are generated, if they are, whether the
lock is poisoned, and the message of a statement that fails. -/
structure Conditions where
  nonce : Option Nonce
  generated : Option MasterKey
  poisoned : Bool
  sql : Option Text

/-- `str::as_bytes`. -/
def as_bytes (t : Text) : List UInt8 := (into_bytes t).data.toList

/-- `String::from_utf8`. -/
def string_from_utf8 (bytes : List UInt8) : Option Text := from_utf8 ⟨bytes.toArray⟩

theorem string_from_utf8_as_bytes (t : Text) : string_from_utf8 (as_bytes t) = some t := by
  unfold string_from_utf8 as_bytes
  rw [Array.toArray_toList]
  exact from_utf8_into_bytes t

namespace MasterKey

variable (ciphers : Ciphers)

/-- `MasterKey::from_base64`. -/
def from_base64 (encoded : Text) : Except SecretStoreError MasterKey :=
  match ciphers.decode (trim encoded) with
  | none => .error .InvalidMasterKey
  | some bytes => if h : bytes.length = 32 then .ok ⟨bytes, h⟩ else .error .InvalidMasterKey

/-- `MasterKey::generate`. -/
def generate (conditions : Conditions) : Except SecretStoreError MasterKey :=
  ok_or conditions.generated .Crypto

/-- `MasterKey::seal`. -/
def «seal» (key : MasterKey) (conditions : Conditions) (plaintext : Text) :
    Except SecretStoreError (List UInt8) := do
  let nonce ← ok_or conditions.nonce .Crypto
  let ciphertext ← ok_or (ciphers.seal_in_place key nonce (as_bytes plaintext)) .Crypto
  .ok (nonce.val ++ ciphertext)

/-- `MasterKey::open`. -/
def «open» (key : MasterKey) (sealed : List UInt8) : Except SecretStoreError Text :=
  if h : sealed.length < NONCE_LEN then .error .Crypto
  else do
    let nonce : Nonce := ⟨sealed.take NONCE_LEN, by rw [List.length_take]; omega⟩
    let plaintext ← ok_or (ciphers.open_in_place key nonce (sealed.drop NONCE_LEN)) .Crypto
    ok_or (string_from_utf8 plaintext) .Crypto

end MasterKey

/-! ## The store -/

/-- Sealed values by name: the rows of `secret_values`, or the map in memory. -/
abbrev SealedValues := Std.ExtTreeMap Text (List UInt8) compare

/-- `Backend`; the rows of the database are no part of the store. -/
inductive Backend
  | InMemory (map : SealedValues)
  | Sqlite

/-- `SecretStore`. -/
structure SecretStore where
  backend : Backend
  master_key : MasterKey
  writable : Bool

namespace SecretStore

variable (ciphers : Ciphers)

/-- `verify_all_decrypt`. -/
def verify_all_decrypt (rows : SealedValues) (key : MasterKey) : Except SecretStoreError Unit :=
  if rows.toList.all fun row => (MasterKey.open ciphers key row.2).isOk then .ok ()
  else .error .InvalidMasterKey

/-- The key that `SecretStore::open` finds in the environment, if there is one. -/
def configured (env : TextMap) : Except SecretStoreError (Option MasterKey) :=
  match env[MASTER_KEY_ENV]? with
  | none => .ok none
  | some encoded =>
    if encoded = [] then .ok none else (MasterKey.from_base64 ciphers encoded).map some

/-- `SecretStore::open`, with the rows of the database if it is given one. -/
def «open» (conditions : Conditions) (database : Option SealedValues) (env : TextMap) :
    Except SecretStoreError SecretStore := do
  let configured ← configured ciphers env
  match database with
  | none =>
    match configured with
    | some key => .ok ⟨.InMemory ∅, key, true⟩
    | none => do
      let key ← MasterKey.generate conditions
      .ok ⟨.InMemory ∅, key, true⟩
  | some rows =>
    match conditions.sql with
    | some detail => .error (.Persistence detail)
    | none =>
      match configured with
      | some key => do
        verify_all_decrypt ciphers rows key
        .ok ⟨.Sqlite, key, true⟩
      | none =>
        if 0 < rows.size then .error .MasterKeyUnavailable
        else do
          let key ← MasterKey.generate conditions
          .ok ⟨.Sqlite, key, false⟩

/-- The values of the store, in its map or in the rows of the database. -/
def values (store : SecretStore) (rows : SealedValues) : SealedValues :=
  match store.backend with
  | .InMemory map => map
  | .Sqlite => rows

/-- The store and the rows with other values of the store. -/
def write (store : SecretStore) (rows next : SealedValues) : SecretStore × SealedValues :=
  match store.backend with
  | .InMemory _ => ({ store with backend := .InMemory next }, rows)
  | .Sqlite => (store, next)

/-- The lock is taken and the statement goes through. -/
def reach (store : SecretStore) (conditions : Conditions) : Except SecretStoreError Unit :=
  if conditions.poisoned then .error .Crypto
  else match store.backend, conditions.sql with
    | .Sqlite, some detail => .error (.Persistence detail)
    | _, _ => .ok ()

/-- `SecretStore::set_value`. -/
def set_value (store : SecretStore) (conditions : Conditions) (rows : SealedValues)
    (name value : Text) : Except SecretStoreError Unit × SecretStore × SealedValues :=
  if !store.writable then (.error .MasterKeyUnavailable, store, rows)
  else match MasterKey.seal ciphers store.master_key conditions value with
    | .error e => (.error e, store, rows)
    | .ok sealed =>
      match store.reach conditions with
      | .error e => (.error e, store, rows)
      | .ok () => (.ok (), store.write rows ((store.values rows).insert name sealed))

/-- `SecretStore::clear_value`. -/
def clear_value (store : SecretStore) (conditions : Conditions) (rows : SealedValues)
    (name : Text) : Except SecretStoreError Bool × SecretStore × SealedValues :=
  match store.reach conditions with
  | .error e => (.error e, store, rows)
  | .ok () =>
    (.ok ((store.values rows).contains name),
      store.write rows ((store.values rows).erase name))

/-- `SecretStore::set_names`. -/
def set_names (store : SecretStore) (conditions : Conditions) (rows : SealedValues) :
    Except SecretStoreError (List Text) :=
  (store.reach conditions).map fun _ => (store.values rows).keys

/-- `SecretStore::is_set`. -/
def is_set (store : SecretStore) (conditions : Conditions) (rows : SealedValues) (name : Text) :
    Except SecretStoreError Bool :=
  (store.set_names conditions rows).map fun names => names.contains name

/-- `SecretStore::resolve`. -/
def resolve (store : SecretStore) (conditions : Conditions) (rows : SealedValues) (name : Text) :
    Except SecretStoreError (Option Text) := do
  store.reach conditions
  match (store.values rows)[name]? with
  | some sealed => (MasterKey.open ciphers store.master_key sealed).map some
  | none => .ok none

end SecretStore

/-! ## Stores on a database -/

/-- Where a store keeps its values. -/
inductive Place
  | memory
  | database
  deriving DecidableEq

/-- Where this store does. -/
def SecretStore.place (store : SecretStore) : Place :=
  match store.backend with
  | .InMemory _ => .memory
  | .Sqlite => .database

/-- What has succeeded: a store in memory was opened, a value was set under a key, or
cleared. -/
inductive Entry
  | created
  | set (place : Place) (name value : Text) (key : MasterKey)
  | cleared (place : Place) (name : Text)

/-- The last value that was set for a name and not cleared since, and the key it was set
under; the latest entry comes first. -/
def last_set (place : Place) (name : Text) : List Entry → Option (Text × MasterKey)
  | [] => none
  | .created :: rest => if place = .memory then none else last_set place name rest
  | .set p n value key :: rest =>
    if p = place ∧ n = name then some (value, key) else last_set place name rest
  | .cleared p n :: rest => if p = place ∧ n = name then none else last_set place name rest

@[inherit_doc last_set]
def last_value (place : Place) (name : Text) (history : List Entry) : Option Text :=
  (last_set place name history).map Prod.fst

/-- A database, the store that is open on it, if there is one, and what has happened. -/
structure Host where
  rows : SealedValues := ∅
  store : Option SecretStore := none
  history : List Entry := []

/-- The calls that open, change and close a store. -/
inductive Call
  | open (persistent : Bool) (env : TextMap)
  | set_value (name value : Text)
  | clear_value (name : Text)
  | close

section Steps

variable (ciphers : Ciphers)

/-- A call under some conditions. A store is opened when none is open, and the others are
calls of the open one. -/
inductive Step : Host → Call × Conditions → Host → Prop
  | opened {host : Host} {persistent : Bool} {env : TextMap} {conditions : Conditions}
      {store : SecretStore} (hclosed : host.store = none)
      (h : SecretStore.open ciphers conditions (if persistent then some host.rows else none) env
        = .ok store) :
      Step host (.open persistent env, conditions)
        { host with
          store := some store
          history := if persistent then host.history else .created :: host.history }
  | not_opened {host : Host} {persistent : Bool} {env : TextMap} {conditions : Conditions}
      {e : SecretStoreError} (hclosed : host.store = none)
      (h : SecretStore.open ciphers conditions (if persistent then some host.rows else none) env
        = .error e) :
      Step host (.open persistent env, conditions) host
  | set_value {host : Host} {store store' : SecretStore} {name value : Text}
      {conditions : Conditions} {result : Except SecretStoreError Unit} {rows' : SealedValues}
      (hopen : host.store = some store)
      (h : store.set_value ciphers conditions host.rows name value = (result, store', rows')) :
      Step host (.set_value name value, conditions)
        ⟨rows', some store', if result.isOk then
          .set store.place name value store.master_key :: host.history else host.history⟩
  | clear_value {host : Host} {store store' : SecretStore} {name : Text}
      {conditions : Conditions} {result : Except SecretStoreError Bool} {rows' : SealedValues}
      (hopen : host.store = some store)
      (h : store.clear_value conditions host.rows name = (result, store', rows')) :
      Step host (.clear_value name, conditions)
        ⟨rows', some store', if result.isOk then
          .cleared store.place name :: host.history else host.history⟩
  | close {host : Host} {conditions : Conditions} :
      Step host (.close, conditions) { host with store := none }

end Steps

end AgentSpace.Config
