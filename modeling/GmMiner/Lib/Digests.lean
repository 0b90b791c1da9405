import Mathlib.Data.List.Induction

/-!
Digests, alone and in chains.

A chain's digest is of the one before it and a new item. Two chains that end in one digest are over the
same items, or two different steps of them have one digest, or one of them comes back to where it
started (`items_eq_or_collides`).
-/

namespace GmMiner.Lib

universe u v

/-- Two texts are different and have one digest. -/
def Collide {T : Type u} {D : Type v} (hash : T → D) (text other : T) : Prop :=
  text ≠ other ∧ hash text = hash other

/-- Texts of one digest are the same text or a collision. -/
theorem eq_or_collide {T : Type u} {D : Type v} {hash : T → D} {text other : T}
    (same : hash text = hash other) : text = other ∨ Collide hash text other := by
  by_cases equal : text = other
  · exact .inl equal
  · exact .inr ⟨equal, same⟩

namespace HashChain

variable {D : Type u} {I : Type v} (hash : D × I → D) (start : D)

/-- The last digest of a chain. -/
def digest (items : List I) : D := items.foldl (fun last item => hash (last, item)) start

/-- The last item is hashed onto the digest of the others. -/
theorem digest_concat (items : List I) (item : I) :
    digest hash start (items ++ [item]) = hash (digest hash start items, item) := by
  rw [digest, List.foldl_append]
  rfl

/-- Two different steps, one of each chain, have one digest. -/
def Collides (items others : List I) : Prop :=
  ∃ before item before' item', before ++ [item] <+: items ∧ before' ++ [item'] <+: others ∧
    Collide hash (digest hash start before, item) (digest hash start before', item')

/-- A step of the chain comes back to where it started. -/
def Returns (items : List I) : Prop :=
  ∃ before item, before ++ [item] <+: items ∧ hash (digest hash start before, item) = start

variable {hash start}

/-- A collision below two logs is one below longer ones. -/
theorem Collides.mono {items others longer longerOthers : List I}
    (collides : Collides hash start items others) (within : items <+: longer)
    (withinOthers : others <+: longerOthers) : Collides hash start longer longerOthers := by
  obtain ⟨before, item, before', item', first, second, collide⟩ := collides
  exact ⟨before, item, before', item', first.trans within, second.trans withinOthers, collide⟩

/-- A return to the start below a log is one below a longer log. -/
theorem Returns.mono {items longer : List I} (returns : Returns hash start items)
    (within : items <+: longer) : Returns hash start longer := by
  obtain ⟨before, item, here, same⟩ := returns
  exact ⟨before, item, here.trans within, same⟩

/-- A log whose digest is the start returns there. -/
theorem returns_of_digest_eq {items : List I} {item : I}
    (same : digest hash start (items ++ [item]) = start) :
    Returns hash start (items ++ [item]) := by
  rw [digest_concat] at same
  exact ⟨items, item, List.prefix_rfl, same⟩

/-- Logs of one digest are the same log, or show a collision or a return to the
start. -/
theorem items_eq_or_collides {items others : List I}
    (same : digest hash start items = digest hash start others) :
    items = others ∨ Collides hash start items others ∨ Returns hash start items ∨
      Returns hash start others := by
  -- From the last item back: the chains end alike, so their last steps do or collide.
  induction items using List.reverseRecOn generalizing others with
  | nil =>
      cases others using List.reverseRecOn with
      | nil => exact .inl rfl
      | append_singleton others other =>
          exact .inr (.inr (.inr (returns_of_digest_eq same.symm)))
  | append_singleton items item ih =>
      cases others using List.reverseRecOn with
      | nil => exact .inr (.inr (.inl (returns_of_digest_eq same)))
      | append_singleton others other =>
          have last := same
          rw [digest_concat, digest_concat] at last
          rcases eq_or_collide last with step | collide
          · obtain ⟨earlier, rfl⟩ := Prod.mk.inj step
            rcases ih earlier with rfl | collides | returns | returns
            · exact .inl rfl
            · exact .inr (.inl (collides.mono (List.prefix_append _ _) (List.prefix_append _ _)))
            · exact .inr (.inr (.inl (returns.mono (List.prefix_append _ _))))
            · exact .inr (.inr (.inr (returns.mono (List.prefix_append _ _))))
          · exact .inr (.inl
              ⟨items, item, others, other, List.prefix_rfl, List.prefix_rfl, collide⟩)

end HashChain

end GmMiner.Lib
