/-
VortexOS.Lib.Forest — forests with a first-child and a next-sibling link.

`Kids F kids` says that following the sibling links from the first child of
`d` visits exactly `kids d`, and that the parent link of every node there
leads back to `d`. `addChild` is the sequence of stores that links a node in
as a first child. Parent links of nodes that are on no list are not part of
the structure (`Kids.setParent`): they are where one forest is grafted on
another. `Climbs F n r` follows the parent links.
-/
import VortexOS.Lib.Queue

namespace VortexOS.Lib

open Function

@[ext]
structure Forest (ι : Type) where
  parent : ι → Option ι
  first : ι → Option ι
  next : ι → Option ι

namespace Forest

variable {ι : Type} {F : Forest ι} {kids : ι → List ι} {c d e n r : ι}

structure Kids (F : Forest ι) (kids : ι → List ι) : Prop where
  seg : ∀ d, Seg F.next (F.first d) (kids d) none
  parent : ∀ d, ∀ c ∈ kids d, F.parent c = some d

def Climbs (F : Forest ι) : ι → ι → Prop := Relation.ReflTransGen fun c d => F.parent c = some d

lemma Climbs.head (h : F.parent c = some d) (hd : F.Climbs d r) : F.Climbs c r :=
  Relation.ReflTransGen.head h hd

lemma Kids.unique (h : F.Kids kids) (hd : c ∈ kids d) (he : c ∈ kids e) : d = e :=
  Option.some.inj ((h.parent d c hd).symm.trans (h.parent e c he))

section

variable [DecidableEq ι]

/-- `child->parent = d; child->next = d->first; d->first = child;` -/
def addChild (F : Forest ι) (d c : ι) : Forest ι where
  parent := update F.parent c (some d)
  first := update F.first d (some c)
  next := update F.next c (F.first d)

def setParent (F : Forest ι) (c : ι) (v : Option ι) : Forest ι :=
  { F with parent := update F.parent c v }

lemma Kids.addChild (h : F.Kids kids) (hc : ∀ e, c ∉ kids e) (d : ι) :
    (F.addChild d c).Kids (update kids d (c :: kids d)) where
  seg e := by
    have hseg : ∀ e, Seg (F.addChild d c).next (F.first e) (kids e) none := fun e =>
      (h.seg e).congr fun x hx => by
        have hxc : x ≠ c := fun heq => hc e (heq ▸ hx)
        simp [Forest.addChild, hxc]
    by_cases he : e = d
    · subst he
      simp only [update_self, Seg]
      simpa [Forest.addChild] using hseg e
    · simpa [Forest.addChild, he] using hseg e
  parent e x hx := by
    by_cases hxc : x = c
    · subst hxc
      by_cases he : e = d
      · simp [Forest.addChild, he]
      · rw [update_of_ne he] at hx
        exact absurd hx (hc e)
    · have hx' : x ∈ kids e := by
        by_cases he : e = d
        · subst he
          simpa [hxc] using hx
        · simpa [he] using hx
      simpa [Forest.addChild, hxc] using h.parent e x hx'

lemma Kids.setParent (h : F.Kids kids) (hc : ∀ e, c ∉ kids e) (v : Option ι) :
    (F.setParent c v).Kids kids where
  seg := h.seg
  parent e x hx := by
    have hxc : x ≠ c := fun heq => hc e (heq ▸ hx)
    simpa [Forest.setParent, hxc] using h.parent e x hx

end

end Forest

end VortexOS.Lib
