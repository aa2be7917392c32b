import Scaffold.Proofs.Disk.Changes
import Scaffold.World.Timing

/-!
# What actions may change on the disk

`Act.Stays d files folders a` says that an action `a` keeps to a footprint: on any disk that differs
from `d` in nothing but files at some locations and new folders at others, every run of `a`, whether it
succeeds or fails, leaves a disk of this kind.  It is closed under everything that actions are put
together with, so the footprint of a long action is found from those of its parts; an action that does
not look at the disk is within every footprint.
-/

namespace Scaffold

namespace Act

variable {α β : Type} {d : Disk} {files folders : Location → Prop} {a : Act α} {k : α → Act β}

/-- An action that changes nothing but files at some locations and new folders at others, as seen
from a disk. -/
def Stays (d : Disk) (files folders : Location → Prop) (a : Act α) : Prop :=
  ∀ w, Disk.Changes files folders d w.disk → Disk.Changes files folders d (a.runOn w).2.disk

namespace Stays

/-- The disk that a run leaves. -/
lemma run {r : Except Failure α} {w w' : World} (h : Stays d files folders a) (hrun : a.runOn w = (r, w'))
    (hw : Disk.Changes files folders d w.disk) : Disk.Changes files folders d w'.disk := by
  have hchanges := h w hw
  rwa [hrun] at hchanges

lemma of_disk_eq (h : ∀ w, (a.runOn w).2.disk = w.disk) : Stays d files folders a := fun w hw =>
  (h w).symm ▸ hw

lemma pure (x : α) : Stays d files folders (Pure.pure x : Act α) := of_disk_eq fun _ => rfl

lemma throw (f : Failure) : Stays d files folders (MonadExcept.throw f : Act α) :=
  of_disk_eq fun _ => rfl

lemma ofExcept (r : Except Failure α) : Stays d files folders (Act.ofExcept r) :=
  of_disk_eq fun _ => rfl

lemma ofFit (r : Except Misfit α) : Stays d files folders (Act.ofFit r) := of_disk_eq fun _ => rfl

lemma say (records : List Log.Record) : Stays d files folders (Act.say records) :=
  of_disk_eq fun _ => rfl

lemma look (f : Disk → Except Failure α) : Stays d files folders (Act.look f) :=
  of_disk_eq fun _ => rfl

/-- A sequence keeps to the footprint of its parts. -/
lemma bind (ha : Stays d files folders a) (hk : ∀ x, Stays d files folders (k x)) :
    Stays d files folders (a >>= k) := by
  intro w hw
  have hfirst := ha w hw
  rw [runOn_bind]
  cases hrun : a.runOn w with
  | mk r w₁ =>
    rw [hrun] at hfirst
    cases r with
    | ok x => exact hk x w₁ hfirst
    | error f => exact hfirst

/-- Two branches that go on alike. -/
lemma ite_bind {c : Prop} [Decidable c] {b : Act α} (ha : c → Stays d files folders a)
    (hb : ¬ c → Stays d files folders b) (hk : ∀ x, Stays d files folders (k x)) :
    Stays d files folders (if c then a >>= k else b >>= k) := by
  split
  · exact (ha ‹_›).bind hk
  · exact (hb ‹_›).bind hk

/-- What follows a look at the disk may rest on what was seen. -/
lemma bind_look {γ : Type} {f : Disk → Except Failure γ} {k : γ → Act α}
    (h : ∀ w x, Disk.Changes files folders d w.disk → f w.disk = .ok x →
      Disk.Changes files folders d ((k x).runOn w).2.disk) :
    Stays d files folders (Act.look f >>= k) := by
  intro w hw
  rw [runOn_bind, runOn_look]
  cases hf : f w.disk with
  | ok x => exact h w x hw hf
  | error e => exact hw

lemma attempt (ha : Stays d files folders a) : Stays d files folders (Act.attempt a) :=
  fun w hw => ha w hw

lemma timed (label : Text) (ha : Stays d files folders a) :
    Stays d files folders (Timing.timed label a) :=
  ha.attempt.bind fun r => (say _).bind fun _ => ofExcept r

lemma change {f : Disk → Except Failure α × Disk}
    (h : ∀ d', d'.home = d.home → Disk.Changes files folders d' (f d').2) :
    Stays d files folders (Act.change f) := fun w hw => hw.trans (h w.disk hw.home)

end Stays

end Act

namespace Files

open Act

variable {d : Disk} {files folders : Location → Prop} {p : Path}

lemma stays_ensureFolder (hway : ∀ l, Disk.OnWay d p l → folders l) :
    Stays d files folders (ensureFolder p) := by
  refine .bind (.change fun d' hhome => ?_) fun _ => .say _
  have hmade : Disk.Changes files (Disk.OnWay d' p) d' (d'.makeFolders p).2 := Disk.changes_makeFolders p d'
  rw [Disk.onWay_of_home hhome] at hmade
  exact hmade.mono (fun _ h => h) hway

lemma place_of_ensureFolder {w w' : World} (h : (ensureFolder p).runOn w = (.ok (), w')) :
    ∃ m, w'.disk.place p = .ok ⟨m, some .folder⟩ := by
  rw [ensureFolder, runOn_bind, runOn_change] at h
  cases hmake : Disk.makeFolders p w.disk with
  | mk r d' =>
    rw [hmake] at h
    cases r with
    | error e => cases h
    | ok u =>
      cases h
      exact Disk.place_of_makeFolders hmake

/-- Writing a file keeps to a footprint that has the file and the folders on the way to it. -/
lemma stays_write (hfile : files (d.destination p)) (hway : ∀ l, Disk.OnWay d p.parent l → folders l)
    (t : Text) : Stays d files folders (write true p t) := by
  refine (stays_ensureFolder hway).bind fun _ => .bind (.change fun d' hhome => ?_) fun _ =>
    (Stays.say _).bind fun _ => .pure _
  have hwrite : Disk.Changes (· = d'.destination p) folders d' (d'.writeAtomic p (Utf8.encode t)).2 :=
    Disk.changes_writeAtomic p _ d'
  rw [Disk.destination_of_home hhome] at hwrite
  exact hwrite.mono (fun l hl => hl ▸ hfile) fun _ h => h

lemma stays_readDocument (p : Path) : Stays d files folders (readDocument p) :=
  (Stays.look _).bind fun _ => .ofExcept _

end Files

end Scaffold
