/-
The Redis commands the vault uses, and its batch script.

A command runs against the live entries of the keyspace at the server's
clock. `SADD` to an absent key creates a set without a deadline; `EXPIRE`
of an absent key does nothing; a command on a value of another kind is an
error and changes nothing.

The script is the Lua of the vault, entry by entry: reuse the record an
index entry names if it is there, and otherwise write both anew. It runs
to completion at one moment of the server's clock.
-/
import PrivacyGateway.Domain
import PrivacyGateway.Lib.Effect
import PrivacyGateway.Lib.Keyspace

namespace PrivacyGateway.Vault

open Effect

/-- A stored value. The vault stores texts under its index keys, sealed
bytes under its record keys, and one set of key names for a session. -/
inductive RedisValue
  | text (value : Text)
  | blob (value : Bytes)
  | set (members : List Text)
deriving DecidableEq

/-- What a command may fail with. -/
inductive RedisError
  | wrongType
deriving DecidableEq

/-- The server: its clock, in milliseconds, and its keyspace. -/
structure Redis where
  now : Nat
  keys : Keyspace Text RedisValue

namespace Redis

def peek (r : Redis) (key : Text) : Option (Entry RedisValue) :=
  r.keys.peek r.now key

/-- The moment a time to live set now runs out. -/
def deadline (r : Redis) (seconds : Nat) : Nat :=
  r.now + seconds * 1000

def putKeys (r : Redis) (keys : Keyspace Text RedisValue) : Redis :=
  { r with keys := keys }

-- ==================================================== commands

/-- The bytes of the string under a key. -/
def stringAt (r : Redis) (key : Text) : Option Bytes :=
  match r.peek key with
  | some ⟨.blob value, _⟩ => some value
  | some ⟨.text value, _⟩ => some (encodeUtf8 value)
  | _ => none

/-- `GET`. -/
def get (key : Text) : Eff Redis RedisError (Option Bytes) :=
  act fun r =>
    match r.peek key with
    | some ⟨.set _, _⟩ => (.error .wrongType, r)
    | _ => (.ok (r.stringAt key), r)

/-- `EXISTS`. -/
def keyExists (key : Text) : Eff Redis RedisError Bool :=
  act fun r => (.ok (r.peek key).isSome, r)

/-- `SET key value EX seconds`. -/
def setEx (key : Text) (value : RedisValue) (seconds : Nat) :
    Eff Redis RedisError Unit :=
  act fun r => (.ok (),
    r.putKeys (r.keys.write key ⟨value, some (r.deadline seconds)⟩))

/-- `EXPIRE key seconds`. -/
def expire (key : Text) (seconds : Nat) : Eff Redis RedisError Unit :=
  act fun r => (.ok (),
    r.putKeys (r.keys.extend r.now key (r.deadline seconds)))

/-- The members with one more, unless it is there. -/
def insertMember (member : Text) (members : List Text) : List Text :=
  if member ∈ members then members else members ++ [member]

/-- The keyspace after `SADD`, where the key holds a set or nothing. -/
def addMember (keys : Keyspace Text RedisValue) (now : Nat)
    (key member : Text) : Keyspace Text RedisValue :=
  match keys.peek now key with
  | some ⟨.set members, deadline⟩ =>
      keys.write key ⟨.set (insertMember member members), deadline⟩
  | _ => keys.write key ⟨.set [member], none⟩

/-- `SADD`. -/
def sadd (key member : Text) : Eff Redis RedisError Unit :=
  act fun r =>
    match r.peek key with
    | some ⟨.text _, _⟩ => (.error .wrongType, r)
    | some ⟨.blob _, _⟩ => (.error .wrongType, r)
    | _ => (.ok (), r.putKeys (addMember r.keys r.now key member))

/-- `SMEMBERS`. -/
def smembers (key : Text) : Eff Redis RedisError (List Text) :=
  act fun r =>
    match r.peek key with
    | none => (.ok [], r)
    | some ⟨.set members, _⟩ => (.ok members, r)
    | some _ => (.error .wrongType, r)

/-- `MGET`: a key that holds no string reads as absent. -/
def mget (keys : List Text) : Eff Redis RedisError (List (Option Bytes)) :=
  act fun r => (.ok (keys.map r.stringAt), r)

/-- `DEL`: how many of the keys were there. -/
def del (keys : List Text) : Eff Redis RedisError Nat :=
  act fun r => (.ok (keys.dedup.countP (fun key => (r.peek key).isSome)),
    r.putKeys (r.keys.eraseAll keys))

/-- `DEL`, queued only when there is a key to delete. -/
def delAny (keys : List Text) : Eff Redis RedisError Nat :=
  if keys = [] then pure 0 else del keys

-- ==================================================== the script

/-- One value of a script's reply. -/
inductive Reply
  | bulk (value : Text)
  | int (value : Int)
deriving DecidableEq

/-- The keys and arguments of one entry of the batch. -/
structure ScriptEntry where
  fingerprintKey : Text
  candidateKey : Text
  candidateId : Text
  envelope : Bytes
deriving DecidableEq

/-- Write an entry's record and index, and list both. -/
def createEntry (metaKey : Text) (ttl : Nat) (entry : ScriptEntry) :
    Eff Redis RedisError (List Reply) := do
  setEx entry.candidateKey (.blob entry.envelope) ttl
  setEx entry.fingerprintKey (.text entry.candidateId) ttl
  sadd metaKey entry.candidateKey
  sadd metaKey entry.fingerprintKey
  return [.bulk entry.candidateId, .int 1]

/-- One round of the script's loop. -/
def writeEntry (metaKey recordPrefix : Text) (ttl : Nat)
    (entry : ScriptEntry) : Eff Redis RedisError (List Reply) := do
  let found ← get entry.fingerprintKey
  -- bytes that are no text name no key, so there is no such record
  match found.bind decodeUtf8 with
  | none => createEntry metaKey ttl entry
  | some existingId =>
      let existingKey := recordPrefix ++ existingId
      if ← keyExists existingKey then
        expire entry.fingerprintKey ttl
        expire existingKey ttl
        return [.bulk existingId, .int 0]
      else createEntry metaKey ttl entry

/-- The script's loop. -/
def writeEntries (metaKey recordPrefix : Text) (ttl : Nat) :
    List ScriptEntry → Eff Redis RedisError (List Reply)
  | [] => return []
  | entry :: entries => do
      let reply ← writeEntry metaKey recordPrefix ttl entry
      let replies ← writeEntries metaKey recordPrefix ttl entries
      return reply ++ replies

/-- The batch script: an atomic batch get-or-create. -/
def batchWrite (metaKey recordPrefix : Text) (ttl : Nat)
    (entries : List ScriptEntry) : Eff Redis RedisError (List Reply) := do
  let result ← writeEntries metaKey recordPrefix ttl entries
  expire metaKey ttl
  return result

end Redis

end PrivacyGateway.Vault
