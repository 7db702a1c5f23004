import Workflow.Json.Printer
import Workflow.Number.Word
import Workflow.Tree.Resolve

namespace Workflow

inductive StoreError where
  | unreadable (key : String)
  | unknownBackend (name : String)
  deriving DecidableEq

def StoreError.message : StoreError → String
  | unreadable key => s!"query error: invalid JSON value for '{key}': not a value"
  | unknownBackend name => s!"unknown state backend '{name}'"

/-- A value with the time, in milliseconds, from which on it no longer counts. -/
structure Entry where
  value : Json
  expiresAt : Option Nat

def Entry.isExpired (e : Entry) (now : Nat) : Bool := e.expiresAt.any (· ≤ now)

/-- A store in memory. Expired entries stay until they are read or swept away. -/
abbrev MemoryStore := Assoc Entry

namespace MemoryStore

/-- Times from here on are beyond the clock. -/
def clockEnd : Nat := Number.half64 * 1000

/-- When a value written now expires: never when that time is beyond the clock. -/
def expiry (now : Nat) (ttl : Option Nat) : Option Nat :=
  (ttl.map (now + ·)).filter (· < clockEnd)

def set (s : MemoryStore) (now : Nat) (key : String) (value : Json) (ttl : Option Nat) :
    MemoryStore :=
  s.insert key ⟨value, expiry now ttl⟩

/-- The value under a key, unless it is expired. -/
def live? (s : MemoryStore) (now : Nat) (key : String) : Option Json :=
  (Assoc.get? s key).bind (fun e => if e.isExpired now then none else some e.value)

def removeIfExpired (s : MemoryStore) (now : Nat) (key : String) : MemoryStore :=
  if (Assoc.get? s key).any (fun e => e.isExpired now) then s.erase key else s

def get (s : MemoryStore) (now : Nat) (key : String) : Option Json × MemoryStore :=
  (s.live? now key, s.removeIfExpired now key)

def delete (s : MemoryStore) (key : String) : MemoryStore := s.erase key

def purge (s : MemoryStore) (now : Nat) : MemoryStore := s.filter (fun e => !e.2.isExpired now)

end MemoryStore

/-- A row of a table store: the text of a value, and when it expires. -/
structure Row where
  text : String
  expiresAt : Option Nat

def Row.isExpired (r : Row) (now : Nat) : Bool := r.expiresAt.any (· ≤ now)

/-- A store in a table. Expired rows read as absent and stay until they are swept away. -/
abbrev TableStore := Assoc Row

namespace TableStore

/-- The last time that a row can hold. -/
def lastTime : Nat := Number.half64 - 1

/-- When a row written now expires. Times that are too large become the last one. -/
def expiry (now : Nat) (ttl : Option Nat) : Option Nat :=
  ttl.map (fun ms => min (now + min ms lastTime) lastTime)

def set (s : TableStore) (now : Nat) (key : String) (value : Json) (ttl : Option Nat) :
    TableStore :=
  s.insert key ⟨value.compact, expiry now ttl⟩

def get (s : TableStore) (now : Nat) (key : String) : Except StoreError (Option Json) :=
  match (Assoc.get? s key).filter (fun r => !r.isExpired now) with
  | none => .ok none
  | some r =>
    match Json.parse? r.text with
    | some v => .ok (some v)
    | none => .error (.unreadable key)

def delete (s : TableStore) (key : String) : TableStore := s.erase key

def purge (s : TableStore) (now : Nat) : TableStore := s.filter (fun r => !r.2.isExpired now)

end TableStore

/-- A store of either make. -/
inductive Store where
  | memory (s : MemoryStore)
  | table (s : TableStore)

namespace Store

def name : Store → String
  | memory _ => "memory"
  | table _ => "sqlite"

/-- The number of entries, expired ones included. -/
def size : Store → Nat
  | memory s => s.length
  | table s => s.length

def get (now : Nat) (key : String) : Store → Except StoreError (Option Json) × Store
  | memory s => let (v, s) := s.get now key; (.ok v, memory s)
  | table s => (s.get now key, table s)

def set (now : Nat) (key : String) (value : Json) (ttl : Option Nat) : Store → Store
  | memory s => memory (s.set now key value ttl)
  | table s => table (s.set now key value ttl)

def delete (key : String) : Store → Store
  | memory s => memory (s.delete key)
  | table s => table (s.delete key)

def purge (now : Nat) : Store → Store
  | memory s => memory (s.purge now)
  | table s => table (s.purge now)

end Store

end Workflow
