import Mathlib.Data.List.Basic

/-!
Streams cut into frames, each ended by a delimiter.

A `Delimiter` says which texts begin with a delimiter; `first` finds the first one in
a text. A `Frame` is a text up to and with its first delimiter, so a stream is cut
into frames in one way only (`Frame.unique`), and every stream is, up to a rest
without a delimiter (`Frame.exists_frames`). A delimiter once found stays where it is
however the stream goes on (`first_append`), and one that is not there yet begins in
the last `width - 1` symbols at the earliest (`first_drop`), which is what a reader
that keeps the rest and goes on with the next piece relies on.
-/

namespace GmMiner.Lib

universe u

structure Delimiter (Symbol : Type u) where
  /-- The length of the delimiter that the text begins with, if it does. -/
  starts : List Symbol → Option Nat
  /-- How much of a delimiter there is at most while it is incomplete. -/
  overlap : Nat
  pos : ∀ {text length}, starts text = some length → 0 < length
  le_length : ∀ {text length}, starts text = some length → length ≤ text.length
  le_overlap : ∀ {text length}, starts text = some length → length ≤ overlap + 1
  append : ∀ {text length} more, starts text = some length → starts (text ++ more) = some length
  of_append : ∀ {text more length}, starts (text ++ more) = some length → length ≤ text.length →
    starts text = some length
  /-- No delimiter is complete within one that is not. -/
  apart : ∀ {text more length}, starts (text ++ more) = some length → text.length < length →
    ∀ n, starts (text.drop n) = none

namespace Delimiter

variable {Symbol : Type u} (d : Delimiter Symbol)

/-- Where the first delimiter begins and ends. -/
def first : List Symbol → Option (Nat × Nat)
  | [] => none
  | symbol :: rest =>
      match d.starts (symbol :: rest) with
      | some length => some (0, length)
      | none => (first rest).map fun found => (found.1 + 1, found.2 + 1)

variable {d}

/-- Without a delimiter anywhere there is no first one. -/
theorem first_eq_none {text : List Symbol} (nowhere : ∀ n, d.starts (text.drop n) = none) :
    d.first text = none := by
  induction text with
  | nil => rfl
  | cons symbol rest ih =>
      unfold first
      rw [show d.starts (symbol :: rest) = none from nowhere 0, ih fun n => nowhere (n + 1)]
      rfl

/-- A delimiter found is nonempty and inside the text. -/
theorem first_bounds {text : List Symbol} {start stop : Nat}
    (found : d.first text = some (start, stop)) :
    start < stop ∧ stop ≤ text.length := by
  induction text generalizing start stop with
  | nil => cases found
  | cons symbol rest ih =>
      unfold first at found
      split at found
      · rename_i length here
        cases found
        exact ⟨d.pos here, d.le_length here⟩
      · obtain ⟨⟨start', stop'⟩, later, same⟩ := Option.map_eq_some_iff.mp found
        cases same
        obtain ⟨ordered, within⟩ := ih later
        exact ⟨Nat.succ_lt_succ ordered, Nat.succ_le_succ within⟩

/-- The first delimiter is one. -/
theorem starts_of_first {text : List Symbol} {start stop : Nat}
    (found : d.first text = some (start, stop)) :
    d.starts (text.drop start) = some (stop - start) := by
  induction text generalizing start stop with
  | nil => cases found
  | cons symbol rest ih =>
      unfold first at found
      split at found
      · rename_i length here
        cases found
        exact here
      · obtain ⟨⟨start', stop'⟩, later, same⟩ := Option.map_eq_some_iff.mp found
        cases same
        rw [List.drop_succ_cons, Nat.add_sub_add_right]
        exact ih later

/-- Symbols that begin no delimiter are passed over. -/
theorem first_skip {skipped : List Symbol}
    (inert : ∀ symbol ∈ skipped, ∀ rest, d.starts (symbol :: rest) = none) (rest : List Symbol) :
    d.first (skipped ++ rest) =
      (d.first rest).map fun found => (found.1 + skipped.length, found.2 + skipped.length) := by
  induction skipped with
  | nil => exact Option.map_id'.symm
  | cons symbol skipped ih =>
      rw [List.cons_append, first, inert symbol List.mem_cons_self]
      dsimp only
      rw [ih fun other mem => inert other (List.mem_cons_of_mem _ mem), Option.map_map]
      rfl

/-- A delimiter found in a text is found there however the text goes on. -/
theorem first_append {text : List Symbol} {at_ : Nat × Nat} (found : d.first text = some at_)
    (more : List Symbol) : d.first (text ++ more) = some at_ := by
  induction text generalizing at_ with
  | nil => cases found
  | cons symbol rest ih =>
      rw [List.cons_append]
      unfold first at found ⊢
      rw [← List.cons_append]
      split at found
      · rename_i length here
        rw [d.append more here]
        exact found
      · rename_i notHere
        cases here : d.starts (symbol :: rest ++ more) with
        | some length =>
            -- An incomplete delimiter at the head has none behind it.
            have incomplete : (symbol :: rest).length < length := by
              by_contra complete
              cases notHere.symm.trans (d.of_append here (Nat.le_of_not_lt complete))
            have nowhere : d.first rest = none :=
              first_eq_none fun n => d.apart here incomplete (n + 1)
            rw [nowhere] at found
            cases found
        | none =>
            obtain ⟨later, foundLater, rfl⟩ := Option.map_eq_some_iff.mp found
            rw [ih foundLater]
            rfl

/-- With no delimiter in a text, the first one of a longer text begins in the last
`overlap` symbols of it at the earliest. -/
theorem first_drop {text more : List Symbol} (absent : d.first text = none) {n : Nat}
    (overlap : n ≤ text.length - d.overlap) :
    d.first (text ++ more) =
      (d.first (text.drop n ++ more)).map fun found => (found.1 + n, found.2 + n) := by
  induction n generalizing text with
  | zero =>
      rw [List.drop_zero]
      exact Option.map_id'.symm
  | succ n ih =>
      cases text with
      | nil =>
          rw [List.length_nil, Nat.zero_sub] at overlap
          cases Nat.not_succ_le_zero _ overlap
      | cons symbol rest =>
          unfold first at absent
          split at absent
          · cases absent
          · rename_i notHere
            have absentLater : d.first rest = none := Option.map_eq_none_iff.mp absent
            have notYet : d.starts (symbol :: (rest ++ more)) = none := by
              cases here : d.starts (symbol :: (rest ++ more)) with
              | none => rfl
              | some length =>
                  rw [List.length_cons] at overlap
                  have narrow := d.le_overlap here
                  have complete : length ≤ (symbol :: rest).length := by
                    rw [List.length_cons]
                    omega
                  cases notHere.symm.trans (@Delimiter.of_append _ d _ more _ here complete)
            rw [List.length_cons] at overlap
            rw [List.cons_append, first, notYet, List.drop_succ_cons]
            dsimp only
            rw [ih absentLater (by omega), Option.map_map]
            rfl

/-- The first delimiter of a text is the first one of what the text has up to it. -/
theorem first_take {text : List Symbol} {start stop : Nat}
    (found : d.first text = some (start, stop)) : d.first (text.take stop) = some (start, stop) := by
  induction text generalizing start stop with
  | nil => cases found
  | cons symbol rest ih =>
      unfold first at found
      split at found
      · rename_i length here
        cases found
        obtain ⟨less, rfl⟩ := Nat.exists_eq_add_one.mpr (d.pos here)
        have cut : d.starts (symbol :: rest.take less) = some (less + 1) := by
          refine @Delimiter.of_append _ d _ (rest.drop less) _ ?_ ?_
          · rw [List.cons_append, List.take_append_drop]
            exact here
          · rw [List.length_cons, List.length_take]
            have within := d.le_length here
            rw [List.length_cons] at within
            omega
        rw [List.take_succ_cons, first, cut]
      · rename_i notHere
        obtain ⟨⟨start', stop'⟩, later, same⟩ := Option.map_eq_some_iff.mp found
        cases same
        have notCut : d.starts (symbol :: rest.take stop') = none := by
          cases here : d.starts (symbol :: rest.take stop') with
          | none => rfl
          | some length =>
              have there := d.append (rest.drop stop') here
              rw [List.cons_append, List.take_append_drop] at there
              cases notHere.symm.trans there
        rw [List.take_succ_cons, first, notCut]
        dsimp only
        rw [ih later]
        rfl

end Delimiter

/-- A text up to and with its first delimiter. -/
@[ext] structure Frame {Symbol : Type u} (d : Delimiter Symbol) where
  text : List Symbol
  delimiter : List Symbol
  first : d.first (text ++ delimiter) = some (text.length, text.length + delimiter.length)

namespace Frame

variable {Symbol : Type u} {d : Delimiter Symbol}

def symbols (frame : Frame d) : List Symbol := frame.text ++ frame.delimiter

/-- What the frames are of. -/
def stream (frames : List (Frame d)) : List Symbol := frames.flatMap symbols

@[simp] theorem stream_nil : stream ([] : List (Frame d)) = [] := rfl

@[simp] theorem stream_cons (frame : Frame d) (frames : List (Frame d)) :
    stream (frame :: frames) = frame.symbols ++ stream frames := rfl

@[simp] theorem stream_append (frames others : List (Frame d)) :
    stream (frames ++ others) = stream frames ++ stream others :=
  List.flatMap_append

theorem length_symbols (frame : Frame d) :
    frame.symbols.length = frame.text.length + frame.delimiter.length := List.length_append

/-- A frame is longer than its text, since no delimiter is empty. -/
theorem length_text_lt (frame : Frame d) : frame.text.length < frame.symbols.length := by
  rw [length_symbols]
  exact (Delimiter.first_bounds frame.first).1

/-- A frame is never empty. -/
theorem symbols_ne_nil (frame : Frame d) : frame.symbols ≠ [] :=
  List.ne_nil_of_length_pos (Nat.zero_lt_of_lt frame.length_text_lt)

/-- A frame's delimiter is read back as the whole of itself. -/
theorem starts_delimiter (frame : Frame d) :
    d.starts frame.delimiter = some frame.delimiter.length := by
  have starts := Delimiter.starts_of_first frame.first
  rw [List.drop_left, Nat.add_sub_cancel_left] at starts
  exact starts

/-- At the head of a stream, a frame ends at the stream's first delimiter. -/
theorem first_symbols_append (frame : Frame d) (rest : List Symbol) :
    d.first (frame.symbols ++ rest) = some (frame.text.length, frame.symbols.length) := by
  rw [length_symbols]
  exact Delimiter.first_append frame.first rest

/-- A stream with a delimiter begins with a frame. -/
theorem of_first {text : List Symbol} {start stop : Nat}
    (found : d.first text = some (start, stop)) :
    ∃ frame : Frame d, ∃ rest, text = frame.symbols ++ rest ∧
      frame.text.length = start ∧ frame.symbols.length = stop := by
  obtain ⟨ordered, within⟩ := Delimiter.first_bounds found
  obtain ⟨before, delimiter, rest, rfl, rfl, rfl⟩ : ∃ before delimiter rest,
      text = before ++ delimiter ++ rest ∧ before.length = start ∧
        before.length + delimiter.length = stop := by
    refine ⟨text.take start, (text.drop start).take (stop - start),
      (text.drop start).drop (stop - start), ?_, ?_, ?_⟩
    · rw [List.append_assoc, List.take_append_drop, List.take_append_drop]
    · rw [List.length_take]
      omega
    · rw [List.length_take, List.length_take, List.length_drop]
      omega
  have cut := Delimiter.first_take found
  rw [List.take_left' List.length_append] at cut
  exact ⟨⟨before, delimiter, cut⟩, rest, rfl, rfl, List.length_append⟩

/-- Every stream is cut into frames, up to a rest without a delimiter. -/
theorem exists_frames (d : Delimiter Symbol) (text : List Symbol) :
    ∃ frames : List (Frame d), ∃ rest, text = stream frames ++ rest ∧ d.first rest = none := by
  induction long : text.length using Nat.strongRecOn generalizing text with
  | _ length ih =>
      cases found : d.first text with
      | none => exact ⟨[], text, rfl, found⟩
      | some at_ =>
          obtain ⟨frame, later, rfl, -, -⟩ := of_first found
          have shorter : later.length < length := by
            rw [← long, List.length_append]
            exact Nat.lt_add_of_pos_left (List.length_pos_iff.mpr frame.symbols_ne_nil)
          obtain ⟨frames, rest, rfl, none⟩ := ih later.length shorter later rfl
          exact ⟨frame :: frames, rest, (List.append_assoc _ _ _).symm, none⟩

/-- Two streams that agree begin with the same frame. -/
theorem head_unique {frame other : Frame d} {rest rest' : List Symbol}
    (same : frame.symbols ++ rest = other.symbols ++ rest') : frame = other ∧ rest = rest' := by
  have ends := frame.first_symbols_append rest
  rw [same, other.first_symbols_append, Option.some.injEq, Prod.mk.injEq] at ends
  obtain ⟨sameText, sameEnd⟩ := ends
  obtain ⟨symbols, rests⟩ := List.append_inj same sameEnd.symm
  obtain ⟨texts, delimiters⟩ := List.append_inj symbols sameText.symm
  exact ⟨Frame.ext texts delimiters, rests⟩

/-- Frames at the head of a stream of frames are its first ones. -/
theorem unique {frames others : List (Frame d)} {rest : List Symbol}
    (same : stream frames ++ rest = stream others) :
    ∃ later, others = frames ++ later ∧ rest = stream later := by
  induction frames generalizing others with
  | nil => exact ⟨others, rfl, same⟩
  | cons frame frames ih =>
      cases others with
      | nil =>
          rw [stream_cons, List.append_assoc] at same
          cases frame.symbols_ne_nil (List.append_eq_nil_iff.mp same).1
      | cons other others =>
          rw [stream_cons, stream_cons, List.append_assoc] at same
          obtain ⟨rfl, rests⟩ := head_unique same
          obtain ⟨later, rfl, rfl⟩ := ih rests
          exact ⟨later, rfl, rfl⟩

/-- A rest without a delimiter is shorter than the frame it becomes. -/
theorem length_lt_of_absent {frame : Frame d} {rest more later : List Symbol}
    (absent : d.first rest = none) (same : rest ++ more = frame.symbols ++ later) :
    rest.length < frame.symbols.length := by
  by_contra long
  obtain ⟨tail, rfl⟩ := List.prefix_of_prefix_length_le ⟨later, same.symm⟩ ⟨more, rfl⟩
    (Nat.le_of_not_lt long)
  cases absent.symm.trans (frame.first_symbols_append tail)

end Frame

end GmMiner.Lib
