import Scaffold.Disk.Basic
import Scaffold.Log

/-!
# Acting on the world

Everything outside a computation is one value: the disk, the server, and what was said and sent so
far.  An action changes it and returns a result or a failure; a failure keeps the changes that were
made before it.
-/

namespace Scaffold

/-- The disk, the server, the records written and the requests sent. -/
structure World where
  disk : Disk
  remote : Remote
  log : List Log.Record := []
  requests : List Request := []

/-- A computation that acts on the world. -/
abbrev Act (α : Type) := ExceptT Failure (StateM World) α

namespace Act

variable {α β : Type}

/-- The action of a function on the world. -/
def ofFunction (f : World → Except Failure α × World) : Act α := fun w => f w

/-- Runs an action on a world. -/
def runOn (a : Act α) (w : World) : Except Failure α × World := a w

/-- A result that is already known. -/
def ofExcept (r : Except Failure α) : Act α := ofFunction fun w => (r, w)

/-- A result that depends on how a document fits. -/
def ofFit (r : Except Misfit α) : Act α := ofExcept (r.mapError .misfit)

/-- Writes records. -/
def say (records : List Log.Record) : Act Unit :=
  ofFunction fun w => (.ok (), { w with log := w.log ++ records })

/-- Looks at the disk. -/
def look (f : Disk → Except Failure α) : Act α := ofFunction fun w => (f w.disk, w)

/-- Changes the disk. -/
def change (f : Disk → Except Failure α × Disk) : Act α :=
  ofFunction fun w => let (r, d) := f w.disk; (r, { w with disk := d })

/-- Runs an action and returns its failure as a result. -/
def attempt (a : Act α) : Act (Except Failure α) :=
  ofFunction fun w => let (r, w) := a.runOn w; (.ok r, w)

/-! ## Runs -/

@[simp] theorem runOn_pure (x : α) (w : World) : (pure x : Act α).runOn w = (.ok x, w) := rfl

@[simp] theorem runOn_throw (f : Failure) (w : World) :
    (throw f : Act α).runOn w = (.error f, w) := rfl

/-- The second action runs on the world that the first one leaves, unless that one failed. -/
theorem runOn_bind (a : Act α) (k : α → Act β) (w : World) :
    (a >>= k).runOn w =
      match a.runOn w with
      | (.ok x, w) => (k x).runOn w
      | (.error f, w) => (.error f, w) := by
  change (ExceptT.bindCont k (a w).1) (a w).2 = _
  unfold runOn
  rcases a w with ⟨r, w⟩
  cases r <;> rfl

@[simp] theorem runOn_ofFunction (f : World → Except Failure α × World) (w : World) :
    (ofFunction f).runOn w = f w := rfl

@[simp] theorem runOn_ofExcept (r : Except Failure α) (w : World) :
    (ofExcept r).runOn w = (r, w) := rfl

@[simp] theorem runOn_say (records : List Log.Record) (w : World) :
    (say records).runOn w = (.ok (), { w with log := w.log ++ records }) := rfl

@[simp] theorem runOn_look (f : Disk → Except Failure α) (w : World) :
    (look f).runOn w = (f w.disk, w) := rfl

@[simp] theorem runOn_change (f : Disk → Except Failure α × Disk) (w : World) :
    (change f).runOn w = ((f w.disk).1, { w with disk := (f w.disk).2 }) := rfl

/-- An attempt never fails, and leaves the world that its action leaves. -/
@[simp] theorem runOn_attempt (a : Act α) (w : World) :
    (attempt a).runOn w = (.ok (a.runOn w).1, (a.runOn w).2) := rfl

end Act

end Scaffold
