import Shh.Runs

/-!
# Saved hosts

The window keeps its hosts in a list, and saves the list to a file after each change. The
list is changed before it is known whether it can be saved, so a call that fails to save has
changed it; only a call that changes nothing may fail without a trace.
-/

namespace Shh.SavedHosts

open List Runs

structure Host where
  id : String
  name : String
  hostname : String
  port : UInt16
  user : String
  identity : Option String
deriving DecidableEq, Repr

/-- The list in memory, and what was loaded or last written with success. -/
structure HostStore where
  hosts : List Host
  written : List Host
deriving DecidableEq, Repr

/-- A call, with the id it would draw. -/
inductive Call where
  | upsert (host : Host) (randomId : String)
  | delete (id : String)

namespace HostStore

def load (hosts : List Host) : HostStore := ⟨hosts, hosts⟩

/-- Write the list to the file, which ends as given. -/
def persist (store : HostStore) (saved : Except String Unit) : HostStore × Except String Unit :=
  match saved with
  | .ok () => ({ store with written := store.hosts }, .ok ())
  | .error reason => (store, .error reason)

/-- The list with a host in the place of the first that has its id. -/
def replaced (host : Host) : List Host → Option (List Host)
  | [] => none
  | first :: rest => if first.id = host.id then some (host :: rest) else (replaced host rest).map (first :: ·)

/-- Add or change a host; one without an id is given a random one. -/
def upsert (store : HostStore) (host : Host) (randomId : String) (saved : Except String Unit) :
    HostStore × Except String Host :=
  let named := if host.id = "" then { host with id := randomId } else host
  let hosts :=
    if host.id = "" then store.hosts ++ [named]
    else (replaced host store.hosts).getD (store.hosts ++ [host])
  let (store, result) := { store with hosts }.persist saved
  (store, result.map fun _ => named)

def delete (store : HostStore) (id : String) (saved : Except String Unit) : HostStore × Except String Unit :=
  { store with hosts := store.hosts.filter (·.id ≠ id) }.persist saved

/-- The state after a call whose save ends as given, and whether the call succeeds. -/
def call (store : HostStore) (saved : Except String Unit) : Call → HostStore × Bool
  | .upsert host randomId => (store.upsert host randomId saved).map (fun store => store) Except.isOk
  | .delete id => (store.delete id saved).map (fun store => store) Except.isOk

end HostStore

open HostStore

variable {store : HostStore} {call : Call} {host : Host}

/-- What should hold of a call: it leaves the list alone if it fails, and the list is what
was written last. -/
def Kept (store : HostStore) (saved : Except String Unit) (call : Call) : Prop :=
  ((store.call saved call).2 = false → (store.call saved call).1.hosts = store.hosts) ∧
    (store.call saved call).1.hosts = (store.call saved call).1.written

/-- The call asks for what is there already. -/
def Call.Idle (hosts : List Host) : Call → Prop
  | .upsert host _ => host.id ≠ "" ∧ hosts.find? (·.id = host.id) = some host
  | .delete id => ∀ host ∈ hosts, host.id ≠ id

theorem replaced_same (hosts : List Host) : (replaced host hosts).getD (hosts ++ [host]) = hosts ↔
    hosts.find? (·.id = host.id) = some host := by
  induction hosts with
  | nil => simp [replaced]
  | cons first rest ih =>
    by_cases same : first.id = host.id
    · simp [replaced, same, eq_comm]
    · rw [replaced, if_neg same, find?_cons_of_neg (by simpa using same), ← ih]
      cases replaced host rest <;> simp

/-- The list is left alone by idle calls, and by no others. -/
theorem call_changes (saved : Except String Unit) :
    (store.call saved call).1.hosts = store.hosts ↔ call.Idle store.hosts := by
  have saves (store : HostStore) : (store.persist saved).1.hosts = store.hosts := by
    cases saved <;> rfl
  cases call with
  | upsert host randomId =>
    by_cases fresh : host.id = ""
    · simp [HostStore.call, upsert, saves, Call.Idle, fresh]
    · simp [HostStore.call, upsert, saves, Call.Idle, fresh, replaced_same]
  | delete id => simp [HostStore.call, delete, saves, Call.Idle]

theorem kept_iff (current : store.hosts = store.written) (saved : Except String Unit) :
    Kept store saved call ↔ saved.isOk = true ∨ call.Idle store.hosts := by
  rw [Kept, ← call_changes saved]
  -- What is written, and whether the call succeeds, is decided by the save.
  have decided : (store.call saved call).2 = saved.isOk ∧ (store.call saved call).1.written =
      if saved.isOk then (store.call saved call).1.hosts else store.written := by
    cases call <;> cases saved <;> exact ⟨rfl, rfl⟩
  rw [decided.1, decided.2]
  cases saved.isOk <;> simp [current]

/-- While list and file agree, a call is kept exactly when its save succeeds or it asks for
what is there; so in every run whose calls all do one or the other, every call is kept. -/
theorem list_kept_iff_saved (loaded : List Host) (calls : List (Except String Unit × Call)) :
    let state := run (fun store (saved, call) => (store.call saved call).1) (.load loaded)
    (∀ store saved call, store.hosts = store.written →
      (Kept store saved call ↔ saved.isOk = true ∨ call.Idle store.hosts)) ∧
    ((∀ past saved call, past ++ [(saved, call)] <+: calls → saved.isOk = true ∨ call.Idle (state past).hosts) →
      (∀ past, past <+: calls → (state past).hosts = (state past).written) ∧
      ∀ past saved call, past ++ [(saved, call)] <+: calls → Kept (state past) saved call) := by
  intro state
  refine ⟨fun store saved call current => kept_iff current saved, fun meets => ?_⟩
  have current (past : List (Except String Unit × Call)) (earlier : past <+: calls) :
      (state past).hosts = (state past).written := by
    induction past using List.reverseRecOn with
    | nil => rfl
    | append_singleton past last ih =>
      have before := ih ((prefix_append _ _).trans earlier)
      simp only [state, run_snoc]
      exact ((kept_iff before last.1).mpr (meets past last.1 last.2 earlier)).2
  refine ⟨current, fun past saved call earlier => ?_⟩
  exact (kept_iff (current past ((prefix_append _ _).trans earlier)) saved).mpr (meets past saved call earlier)

/-- A host whose save failed is listed, though it was never written. -/
theorem failed_upsert_listed :
    let laptop : Host := ⟨"1", "laptop", "laptop.lan", 22, "me", none⟩
    let after := (load []).upsert laptop "" (.error "disk full")
    after.2.isOk = false ∧ after.1 = ⟨[laptop], []⟩ := by
  decide

end Shh.SavedHosts
