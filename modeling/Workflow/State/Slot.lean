import Workflow.Document.Basic
import Workflow.State.Store
import Workflow.Template.Key

namespace Workflow

/-- What executions can change: what the host remembers, the stores of sessions by name, and the state
of each run by its number. -/
structure World (μ : Type) where
  memory : μ
  stores : Assoc Store
  requests : List (Assoc Json) := []

inductive StateError where
  | key (e : ContextError)
  | store (e : StoreError)

def StateError.message : StateError → String
  | key e => "state key error: " ++ e.message
  | store e => e.message

/-- Where a piece of state is kept: with a run, or in a store for some time. -/
inductive Keeper where
  | request (run : Nat)
  | session (backend : String) (ttlMs : Option Nat)
  deriving DecidableEq

/-- A piece of state under its key. -/
structure Slot where
  key : String
  keeper : Keeper
  deriving DecidableEq

/-- The store that nodes use which name none. -/
def defaultBackend : String := "default"

namespace Keeper

def scope : Keeper → StateScope
  | request _ => .request
  | session _ _ => .session

end Keeper

namespace World

variable {μ : Type}

def store? (w : World μ) (backend : Option String) : Except StoreError (String × Store) :=
  let name := backend.getD defaultBackend
  match w.stores.get? name with
  | some s => .ok (name, s)
  | none => .error (.unknownBackend name)

def request (w : World μ) (run : Nat) : Assoc Json := w.requests.getD run []

/-- Change the state of a run, which is there as soon as something is written to it. -/
def setRequest (w : World μ) (run : Nat) (state : Assoc Json) : World μ :=
  let padded := w.requests ++ List.replicate (run + 1 - w.requests.length) []
  { w with requests := padded.set run state }

end World

namespace Slot

variable {μ : Type}

def bind (w : World μ) (run : Nat) (source : Template.KeySource) (config : Option StateConfig) :
    Except StateError (Option Slot) :=
  match config with
  | none => .ok none
  | some c => do
    let key ← (Template.renderKey source c.keyTemplate).mapError .key
    match c.scope with
    | .request => return some ⟨key, .request run⟩
    | .session =>
      let (name, _) ← (w.store? c.backend).mapError .store
      return some ⟨key, .session name (c.ttlSecs.map (1000 * ·))⟩

def get (slot : Slot) (now : Nat) (w : World μ) : Except StoreError (Option Json) × World μ :=
  match slot.keeper with
  | .request run => (.ok ((w.request run).get? slot.key), w)
  | .session name _ =>
    match w.stores.get? name with
    | none => (.error (.unknownBackend name), w)
    | some s =>
      let (v, s) := s.get now slot.key
      (v, { w with stores := w.stores.insert name s })

def set (slot : Slot) (now : Nat) (value : Json) (w : World μ) : World μ :=
  match slot.keeper with
  | .request run => w.setRequest run ((w.request run).insert slot.key value)
  | .session name ttl =>
    match w.stores.get? name with
    | none => w
    | some s => { w with stores := w.stores.insert name (s.set now slot.key value ttl) }

end Slot

end Workflow
