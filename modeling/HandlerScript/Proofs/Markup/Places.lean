import HandlerScript.Markup.Place
import HandlerScript.Proofs.Text.Bytes
import Mathlib.Data.List.Induction

/-! Places in a source.

    An extent counts characters from the end of the source; a span counts bytes from its start, and lines
    and columns. Where a source is some text, a piece and what is behind the piece, the extent of the
    piece covers it: the span starts behind the bytes of the text in front, in the line that its line
    feeds give, at the column that its last line is long. -/

namespace HandlerScript.Markup

open Text (byteCount byteCount_append)

/-- The span of a piece of the source behind the text in front. -/
structure Span.Covers (s : Span) (front piece : List Char) : Prop where
  start : s.start = byteCount front
  stop : s.stop = byteCount (front ++ piece)
  line : s.line = front.count '\n'
  column : ∃ lines last, front = lines ++ last ∧ '\n' ∉ last ∧ (lines = [] ∨ lines.getLast? = some '\n') ∧
    s.column = last.length

theorem advance_append (place : Nat × Nat) (a b : List Char) :
    advance place (a ++ b) = advance (advance place a) b := by
  induction a generalizing place with
  | nil => rfl
  | cons c a ih => exact ih _

/-- Lines are counted by line feeds, and columns by the characters behind the last of them. -/
theorem placeAfter_cases (cs : List Char) : ∃ lines last, cs = lines ++ last ∧ '\n' ∉ last ∧
    (lines = [] ∨ lines.getLast? = some '\n') ∧ placeAfter cs = (cs.count '\n', last.length) := by
  induction cs using List.reverseRecOn with
  | nil => exact ⟨[], [], rfl, List.not_mem_nil, .inl rfl, rfl⟩
  | append_singleton cs c ih =>
    obtain ⟨lines, last, hcs, hlast, hlines, hplace⟩ := ih
    have hstep : placeAfter (cs ++ [c]) =
        if c = '\n' then (cs.count '\n' + 1, 0) else (cs.count '\n', last.length + 1) := by
      rw [placeAfter, advance_append, show advance (0, 0) cs = _ from hplace]
      rfl
    by_cases hc : c = '\n'
    · subst hc
      refine ⟨cs ++ ['\n'], [], by simp, List.not_mem_nil, .inr (by simp), ?_⟩
      rw [hstep, if_pos rfl, List.count_append]
      rfl
    · refine ⟨lines, last ++ [c], by rw [hcs, List.append_assoc], ?_, hlines, ?_⟩
      · rw [List.mem_append, List.mem_singleton]
        exact not_or.2 ⟨hlast, Ne.symm hc⟩
      · rw [hstep, if_neg hc, List.count_append, List.count_singleton, List.length_append]
        simp [hc]

theorem before_append (front behind : List Char) : before (front ++ behind) behind.length = front := by
  rw [before, List.length_append, Nat.add_sub_cancel, List.take_left]

/-- The extent of a piece covers it. -/
theorem Extent.covers (front piece behind : List Char) :
    ((⟨(piece ++ behind).length, behind.length⟩ : Extent).span (front ++ (piece ++ behind))).Covers
      front piece := by
  obtain ⟨lines, last, hfront, hlast, hlines, hplace⟩ := placeAfter_cases front
  have hstart : before (front ++ (piece ++ behind)) (piece ++ behind).length = front := before_append _ _
  have hstop : before (front ++ (piece ++ behind)) behind.length = front ++ piece := by
    rw [← List.append_assoc, before_append]
  constructor
  · rw [Extent.span, hstart]
  · rw [Extent.span, hstop]
  · rw [Extent.span, hstart, hplace]
  · refine ⟨lines, last, hfront, hlast, hlines, ?_⟩
    rw [Extent.span, hstart, hplace]

end HandlerScript.Markup
