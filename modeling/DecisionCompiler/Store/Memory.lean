import DecisionCompiler.Http.Status
import DecisionCompiler.Repository

/-!
Decisions kept in memory.

Every decision that is inserted is kept, in the order of insertion, so that a name inserted again
has several decisions, of which the last one counts. A store may have names that are locked; they
are refused as a remote store would refuse them and leave no trace.
-/

namespace DecisionCompiler

/-- Decisions in the order of insertion. -/
structure MemoryStore where
  decisions : List Decision := []
deriving DecidableEq

namespace MemoryStore

instance : Inhabited MemoryStore := ⟨{}⟩

/-- Keeps a decision behind the others. -/
def push (store : MemoryStore) (decision : Decision) : MemoryStore :=
  ⟨store.decisions ++ [decision]⟩

/-- The decision that was inserted last under a name. -/
def get? (store : MemoryStore) (name : String) : Option Decision :=
  store.decisions.reverse.find? fun decision => decision.name = name

/-- How many decisions are kept. -/
def size (store : MemoryStore) : Nat :=
  store.decisions.length

/-- The names of the decisions in the order of insertion. -/
def names (store : MemoryStore) : List String :=
  store.decisions.map Decision.name

/-- What is pushed counts for its name and for no other. -/
theorem get?_push (store : MemoryStore) (decision : Decision) (name : String) :
    (store.push decision).get? name =
      if decision.name = name then some decision else store.get? name := by
  by_cases h : decision.name = name <;> simp [push, get?, h]

/-- The kind of repository that a memory is. -/
def backend : String := "memory"

/-- The repository that keeps everything. -/
def repository : Repository MemoryStore where
  backend := backend
  insert store decision := (store.push decision, .ok ())

/-- The repository that refuses locked names. -/
def guarded (locked : List String) : Repository MemoryStore where
  backend := backend
  insert store decision :=
    if decision.name ∈ locked then
      (store, .error (.api
        s!"http {Http.statusLine 409} from document store - {decision.name} is locked"))
    else (store.push decision, .ok ())

end MemoryStore

end DecisionCompiler
