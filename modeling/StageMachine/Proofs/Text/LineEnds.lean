import Mathlib.Data.List.TakeWhile
import Mathlib.Tactic
import StageMachine.Proofs.Text.Words

/-! The ends of lines. White space at the ends of a line is trimmed and is no part of a token, so a carriage
return in front of a line feed is not seen, whether it is put there or taken away. -/
namespace StageMachine
namespace Text

theorem head?_trimEnd_cons {c : Char} (solid : isBlank c = false) (rest : Text) :
    (trimEnd (c :: rest)).head? = some c := by
  rw [trimEnd, List.reverse_cons, List.dropWhile_append]
  split <;> simp [solid]

theorem head?_trim (t : Text) : (trim t).head? = t.find? (!isBlank ·) := by
  induction t with
  | nil => rfl
  | cons c rest ih =>
    cases blank : isBlank c with
    | true =>
      have skipped : trim (c :: rest) = trim rest := by
        rw [trim, trimStart, List.dropWhile_cons_of_pos blank, trim, trimStart]
      rw [skipped, ih, List.find?_cons_of_neg (by simp [blank])]
    | false =>
      have kept : trimStart (c :: rest) = c :: rest := List.dropWhile_cons_of_neg (by simp [blank])
      rw [trim, kept, head?_trimEnd_cons blank, List.find?_cons_of_pos (by simp [blank])]

theorem trimEnd_concat {c : Char} (blank : isBlank c) (t : Text) : trimEnd (t ++ [c]) = trimEnd t := by
  rw [trimEnd, List.reverse_append, List.reverse_singleton, List.singleton_append,
    List.dropWhile_cons_of_pos blank, trimEnd]

theorem trim_concat {c : Char} (blank : isBlank c) (t : Text) : trim (t ++ [c]) = trim t := by
  rw [trim, trim, trimStart, trimStart, List.dropWhile_append]
  split
  · next empty =>
    rw [List.isEmpty_iff.1 empty, List.dropWhile_cons_of_pos blank]
    rfl
  · exact trimEnd_concat blank _

theorem exists_trim (t : Text) :
    ∃ before after, t = before ++ trim t ++ after ∧ (∀ c ∈ before, isBlank c) ∧ ∀ c ∈ after, isBlank c := by
  refine ⟨t.takeWhile isBlank, ((trimStart t).reverse.takeWhile isBlank).reverse, ?_,
    fun c => List.mem_takeWhile_imp, fun c member => List.mem_takeWhile_imp (List.mem_reverse.1 member)⟩
  have ended : trim t ++ ((trimStart t).reverse.takeWhile isBlank).reverse = trimStart t := by
    rw [trim, trimEnd, ← List.reverse_append, List.takeWhile_append_dropWhile, List.reverse_reverse]
  rw [List.append_assoc, ended, trimStart, List.takeWhile_append_dropWhile]

def withReturns (t : Text) : Text := t.flatMap fun c => if c = '\n' then ['\r', '\n'] else [c]

def ReturnsPaired : Text → Prop
  | [] => True
  | c :: rest => (c = '\r' → rest.head? = some '\n') ∧ ReturnsPaired rest

def Returned (line other : Text) : Prop := other = line ∨ other = line ++ ['\r']

theorem Returned.trim_eq {line other : Text} (returned : Returned line other) : trim other = trim line := by
  rcases returned with rfl | rfl
  · rfl
  · exact trim_concat (by decide) line

theorem Returned.cons {line other : Text} (returned : Returned line other) (c : Char) :
    Returned (c :: line) (c :: other) := by
  rcases returned with rfl | rfl
  · exact .inl rfl
  · exact .inr rfl

theorem lines_feed (t : Text) : lines ('\n' :: t) = [] :: lines t := rfl

theorem lines_cons {c : Char} (inside : c ≠ '\n') {t line : Text} {rest : List Text}
    (split : lines t = line :: rest) : lines (c :: t) = (c :: line) :: rest := by
  have solid : (c == '\n') = false := by simpa using inside
  unfold lines at split ⊢
  rw [splitWhen, split, solid]

section
variable {s t : Text} (returned : List.Forall₂ Returned (lines s) (lines t))

include returned

theorem returned_cons {c : Char} (inside : c ≠ '\n') :
    List.Forall₂ Returned (lines (c :: s)) (lines (c :: t)) := by
  obtain ⟨line, rest, first⟩ := List.exists_cons_of_ne_nil (splitWhen_ne_nil (· == '\n') s)
  obtain ⟨other, others, second⟩ := List.exists_cons_of_ne_nil (splitWhen_ne_nil (· == '\n') t)
  have first : lines s = line :: rest := first
  have second : lines t = other :: others := second
  rw [first, second] at returned
  obtain ⟨here, there⟩ := List.forall₂_cons.1 returned
  rw [lines_cons inside first, lines_cons inside second]
  exact .cons (here.cons c) there

theorem returned_feed : List.Forall₂ Returned (lines ('\n' :: s)) (lines ('\r' :: '\n' :: t)) := by
  rw [lines_cons (by decide) (lines_feed t), lines_feed]
  exact .cons (.inr rfl) returned

theorem trim_lines : (lines t).map trim = (lines s).map trim := by
  generalize lines s = first at returned
  generalize lines t = second at returned
  induction returned with
  | nil => rfl
  | cons here _ ih => simp [here.trim_eq, ih]

end

theorem lines_withReturns (t : Text) : List.Forall₂ Returned (lines t) (lines (withReturns t)) := by
  induction t with
  | nil => exact .cons (.inl rfl) .nil
  | cons c t ih =>
    by_cases feed : c = '\n'
    · subst feed
      exact returned_feed ih
    · have kept : withReturns (c :: t) = c :: withReturns t := by simp [withReturns, feed]
      rw [kept]
      exact returned_cons ih feed

/-- Where every carriage return stands before a line feed, a line loses no more than a carriage return. -/
theorem lines_unifyNewlines {t : Text} (paired : ReturnsPaired t) :
    List.Forall₂ Returned (lines (unifyNewlines t)) (lines t) := by
  induction t using unifyNewlines.induct with
  | case1 => exact .cons (.inl rfl) .nil
  | case2 rest ih => exact returned_feed (ih paired.2.2)
  | case3 c rest apart ih =>
    have other : c ≠ '\r' := by
      rintro rfl
      obtain ⟨more, rfl⟩ := List.head?_eq_some_iff.1 (paired.1 rfl)
      exact apart more rfl rfl
    rw [unifyNewlines, if_neg other]
    · by_cases feed : c = '\n'
      · subst feed
        rw [lines_feed, lines_feed]
        exact .cons (.inl rfl) (ih paired.2)
      · exact returned_cons (ih paired.2) feed
    · exact apart

end Text

namespace Assembly
open Text

theorem tokens_gap {gap : Text} (separators : ∀ c ∈ gap, isSeparator c) (t : Text) :
    tokens (gap ++ t) = tokens t := by
  induction gap with
  | nil => rfl
  | cons c rest ih =>
    rw [List.cons_append, tokens_separator (separators c (by simp)),
      ih fun d member => separators d (by simp [member])]

theorem tokens_remark (t remark : Text) : tokens (t ++ ';' :: remark) = tokens t := by
  have cut : (t ++ ';' :: remark).takeWhile (· != ';') = t.takeWhile (· != ';') := by
    rw [List.takeWhile_append]
    split
    · next whole =>
      rw [(List.takeWhile_prefix _).eq_of_length whole]
      simp
    · rfl
  rw [tokens, cut, tokens]

theorem tokens_trailing (t : Text) {gap : Text} (separators : ∀ c ∈ gap, isSeparator c) :
    tokens (t ++ gap) = tokens t := by
  by_cases commented : ';' ∈ t
  · obtain ⟨before, after, rfl⟩ := List.append_of_mem commented
    rw [List.append_assoc, List.cons_append, tokens_remark, tokens_remark]
  · cases gap with
    | nil => rw [List.append_nil]
    | cons c rest =>
      have none : tokens (rest ++ []) = [] :=
        tokens_gap (fun d member => separators d (by simp [member])) []
      rw [List.append_nil] at none
      rw [tokens_append commented (separators c (by simp)), none, List.append_nil]

theorem isSeparator_of_isBlank {c : Char} (blank : isBlank c) : isSeparator c := by
  simp [isSeparator, blank]

theorem tokens_trim (t : Text) : tokens (trim t) = tokens t := by
  obtain ⟨before, after, whole, first, last⟩ := exists_trim t
  conv => rhs; rw [whole]
  rw [tokens_trailing _ fun c member => isSeparator_of_isBlank (last c member),
    tokens_gap fun c member => isSeparator_of_isBlank (first c member)]

theorem isCode_trim (t : Text) : isCode (trim t) = (t.find? (!isBlank ·)).any (· != ';') := by
  rw [← head?_trim, isCode]
  cases trim t with
  | nil => rfl
  | cons c rest => exact Bool.eq_iff_iff.2 (by simp)

end Assembly
end StageMachine
