import Mathlib.Data.List.Induction
import ConnectorControl.Connector.Status

/-!
# What a history comes to

Conditions that are pushed one after the other leave the news among them, that is, those that do not
say what the one right before them has said, and of the news the sixteen latest
(`History.foldl_push`).  Each of the news is as it was pushed, with the time of the first condition
that said so.
-/

namespace ConnectorControl

theorem Condition.sameObservation_congr {a b : Condition} (h : a.sameObservation b = true)
    (c : Condition) : a.sameObservation c = b.sameObservation c := by
  obtain ⟨htype, hstatus, hreason, hmessage⟩ := sameObservation_iff.1 h
  unfold sameObservation
  rw [htype, hstatus, hreason, hmessage]

namespace History

/-- the conditions that do not say what the one right before them says -/
def newsAfter (previous : Option Condition) : List Condition → List Condition
  | [] => []
  | c :: cs =>
    if previous.any (·.sameObservation c) then newsAfter (some c) cs
    else c :: newsAfter (some c) cs

/-- the conditions that say something new when they are made -/
def news (cs : List Condition) : List Condition := newsAfter none cs

variable {cs : List Condition} {c : Condition}

theorem newsAfter_concat (previous : Option Condition) (cs : List Condition) (c : Condition) :
    newsAfter previous (cs ++ [c]) = newsAfter previous cs ++
      if (cs.getLast?.or previous).any (·.sameObservation c) then [] else [c] := by
  induction cs generalizing previous with
  | nil =>
    show (if _ then _ else _) = if previous.any (·.sameObservation c) then [] else [c]
    rfl
  | cons d cs ih =>
    have hlast : (d :: cs).getLast?.or previous = cs.getLast?.or (some d) := by
      rw [List.getLast?_cons]
      cases cs.getLast? <;> rfl
    rw [List.cons_append, newsAfter, newsAfter, ih, hlast]
    split
    · rfl
    · rw [List.cons_append]

theorem news_concat (cs : List Condition) (c : Condition) : news (cs ++ [c]) =
    news cs ++ if cs.getLast?.any (·.sameObservation c) then [] else [c] := by
  unfold news
  rw [newsAfter_concat, Option.or_none]

theorem latest_latest_concat (cs : List Condition) (c : Condition) :
    latest (latest cs ++ [c]) = latest (cs ++ [c]) := by
  unfold latest limit
  have hkept : (cs.drop (cs.length - 16) ++ [c]).length - 16 ≤
      (cs.drop (cs.length - 16)).length := by
    simp only [List.length_append, List.length_drop, List.length_singleton]
    omega
  have hall : (cs ++ [c]).length - 16 ≤ cs.length := by
    simp only [List.length_append, List.length_singleton]
    omega
  rw [List.drop_append_of_le_length hkept, List.drop_append_of_le_length hall, List.drop_drop]
  congr 2
  simp only [List.length_append, List.length_drop, List.length_singleton]
  omega

/-- a condition repeats the history that another one was pushed to if it says what that one says -/
theorem repeats_push_eq (cs : List Condition) (d c : Condition) :
    repeats (push cs d) c = d.sameObservation c := by
  have hlast := repeats_push cs d
  unfold repeats at hlast ⊢
  split at hlast
  next last h => exact Condition.sameObservation_congr hlast c
  · cases hlast

theorem repeats_foldl_push (cs : List Condition) (c : Condition) :
    repeats (cs.foldl push []) c = cs.getLast?.any (·.sameObservation c) := by
  induction cs using List.reverseRecOn with
  | nil => rfl
  | append_singleton cs d ih =>
    rw [List.foldl_append, List.getLast?_concat]
    exact repeats_push_eq _ d c

theorem foldl_push (cs : List Condition) : cs.foldl push [] = latest (news cs) := by
  induction cs using List.reverseRecOn with
  | nil => rfl
  | append_singleton cs c ih =>
    rw [List.foldl_append, news_concat]
    show (if repeats (cs.foldl push []) c then cs.foldl push [] else
      latest (cs.foldl push [] ++ [c])) = _
    rw [repeats_foldl_push, ih]
    split
    · rw [List.append_nil]
    · exact latest_latest_concat _ _

end History
end ConnectorControl
