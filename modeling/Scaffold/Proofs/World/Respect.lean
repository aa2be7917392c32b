import Mathlib.Tactic.Common
import Scaffold.World.Files

/-!
# Runs side by side

An action is run on two worlds with the same server, of which the same was asked; their disks are
related, and what was said does not matter.  An action respects a relation on disks (`Act.Respects`) if
both runs have the same result and leave worlds that are related again.  The two runs may also be of
different actions (`Act.Matches`).

Everything that actions are put together with respects every relation, so all that has to be looked at
for a relation are the operations on the files that an action uses (`Disk.Respects`).  A relation that
makes both disks the same says what one run keeps.
-/

namespace Scaffold

/-- Two worlds with related disks and the same server, of which the same was asked. -/
structure World.Related (R : Disk → Disk → Prop) (w w' : World) : Prop where
  disk : R w.disk w'.disk
  remote : w'.remote = w.remote
  requests : w'.requests = w.requests

/-- What is done with the file of a path has the same result on related disks, and leaves related
disks. -/
structure Disk.Respects (R : Disk → Disk → Prop) (p : Path) : Prop where
  isPresent : ∀ d d', R d d' → d'.isPresent p = d.isPresent p
  readText : ∀ d d', R d d' → d'.readText p = d.readText p
  makeFolders : ∀ d d', R d d' → (d'.makeFolders p.parent).1 = (d.makeFolders p.parent).1 ∧
    R (d.makeFolders p.parent).2 (d'.makeFolders p.parent).2
  writeAtomic : ∀ content d d', R d d' → (d'.writeAtomic p content).1 = (d.writeAtomic p content).1 ∧
    R (d.writeAtomic p content).2 (d'.writeAtomic p content).2

namespace Act

variable {α β : Type} {R : Disk → Disk → Prop} {a a' b : Act α} {k k' : α → Act β}

/-- Two actions that have the same result on related worlds, and leave related worlds. -/
def Matches (R : Disk → Disk → Prop) (a a' : Act α) : Prop :=
  ∀ w w', World.Related R w w' →
    (a'.runOn w').1 = (a.runOn w).1 ∧ World.Related R (a.runOn w).2 (a'.runOn w').2

/-- An action with the same result on related worlds, which it leaves related. -/
def Respects (R : Disk → Disk → Prop) (a : Act α) : Prop := Matches R a a

lemma Matches.bind (ha : Matches R a a') (hk : ∀ x, Matches R (k x) (k' x)) :
    Matches R (a >>= k) (a' >>= k') := by
  intro w w' hw
  obtain ⟨hresult, hworld⟩ := ha w w' hw
  rw [runOn_bind, runOn_bind]
  cases hrun : a.runOn w with
  | mk r w₁ =>
    cases hrun' : a'.runOn w' with
    | mk r' w₁' =>
      rw [hrun, hrun'] at hresult hworld
      obtain rfl : r' = r := hresult
      cases r' with
      | ok x => exact hk x w₁ w₁' hworld
      | error f => exact ⟨rfl, hworld⟩

namespace Respects

lemma pure (x : α) : Respects R (Pure.pure x : Act α) := fun _ _ hw => ⟨rfl, hw⟩

lemma throw (f : Failure) : Respects R (MonadExcept.throw f : Act α) := fun _ _ hw => ⟨rfl, hw⟩

lemma ofExcept (r : Except Failure α) : Respects R (Act.ofExcept r) := fun _ _ hw => ⟨rfl, hw⟩

lemma ofFit (r : Except Misfit α) : Respects R (Act.ofFit r) := ofExcept _

lemma say (records : List Log.Record) : Respects R (Act.say records) :=
  fun _ _ hw => ⟨rfl, hw.disk, hw.remote, hw.requests⟩

lemma look {f : Disk → Except Failure α} (h : ∀ d d', R d d' → f d' = f d) :
    Respects R (Act.look f) := fun _ _ hw => ⟨h _ _ hw.disk, hw⟩

lemma change {f : Disk → Except Failure α × Disk}
    (h : ∀ d d', R d d' → (f d').1 = (f d).1 ∧ R (f d).2 (f d').2) : Respects R (Act.change f) :=
  fun _ _ hw => ⟨(h _ _ hw.disk).1, (h _ _ hw.disk).2, hw.remote, hw.requests⟩

lemma bind (ha : Respects R a) (hk : ∀ x, Respects R (k x)) : Respects R (a >>= k) := Matches.bind ha hk

/-- What follows a result that is known may rest on it. -/
lemma bind_ofExcept {r : Except Failure α} (h : ∀ x, r = .ok x → Respects R (k x)) :
    Respects R (Act.ofExcept r >>= k) := by
  cases r with
  | ok x => exact h x rfl
  | error f => exact throw f

/-- Two branches that go on alike. -/
lemma ite_bind {c : Prop} [Decidable c] (ha : c → Respects R a) (hb : ¬ c → Respects R b)
    (hk : ∀ x, Respects R (k x)) : Respects R (if c then a >>= k else b >>= k) := by
  split
  · exact (ha ‹_›).bind hk
  · exact (hb ‹_›).bind hk

lemma attempt (ha : Respects R a) : Respects R (Act.attempt a) := fun w w' hw =>
  ⟨congrArg Except.ok (ha w w' hw).1, (ha w w' hw).2⟩

end Respects

/-- What a run keeps, seen as a relation that makes both disks the same. -/
lemma Respects.keeps {K : Disk → Prop} (h : Respects (fun d d' => d' = d ∧ K d) a) (w : World)
    (hw : K w.disk) : K (a.runOn w).2.disk :=
  (h w w ⟨⟨rfl, hw⟩, rfl, rfl⟩).2.disk.2

end Act

namespace Files

open Act

variable {R : Disk → Disk → Prop} {p : Path}

lemma respects_write (hp : Disk.Respects R p) (t : Text) : Act.Respects R (write true p t) := by
  refine .bind (.bind (.change hp.makeFolders) fun _ => .say _) fun _ => ?_
  exact .bind (.change (hp.writeAtomic _)) fun _ => .bind (.say _) fun _ => .pure _

lemma respects_readDocument (hp : ∀ d d', R d d' → d'.readText p = d.readText p) :
    Act.Respects R (readDocument p) := .bind (.look hp) fun _ => .ofExcept _

end Files

end Scaffold
