import Mathlib.Data.List.Basic

/-! Texts as rows of lines. A line carries the sign that ends it, so that the lines one
after another are the text again; only the last one may go without. -/
namespace Lines

variable {α : Type*} [DecidableEq α] (newline : α)

/-- The lines of a text, each with its end. -/
def split : List α → List (List α)
  | [] => []
  | a :: rest =>
      if a = newline then [a] :: split rest
      else
        match split rest with
        | [] => [[a]]
        | line :: more => (a :: line) :: more

/-- A line with its end, and no other end in it. -/
def Complete (line : List α) : Prop := ∃ body, newline ∉ body ∧ line = body ++ [newline]

/-- A text that does not stop at the end of a line. -/
def Unfinished (text : List α) : Prop := text ≠ [] ∧ text.getLast? ≠ some newline

instance (text : List α) : Decidable (Unfinished newline text) :=
  inferInstanceAs (Decidable (text ≠ [] ∧ text.getLast? ≠ some newline))

variable {newline}

/-- A text is a part without an end, or a line before another text. -/
theorem induction (newline : α) {P : List α → Prop} (last : ∀ body, newline ∉ body → P body)
    (line : ∀ body rest, newline ∉ body → P rest → P (body ++ newline :: rest)) (text : List α) :
    P text := by
  induction hLength : text.length using Nat.strongRecOn generalizing text with
  | _ length ih =>
      by_cases hMem : newline ∈ text
      · obtain ⟨body, rest, rfl, hBody⟩ := List.eq_append_cons_of_mem hMem
        apply line body rest hBody
        apply ih rest.length _ rest rfl
        rw [← hLength, List.length_append, List.length_cons]
        omega
      · exact last text hMem

theorem split_body {body : List α} (hBody : newline ∉ body) (hSome : body ≠ []) :
    split newline body = [body] := by
  induction body with
  | nil => exact absurd rfl hSome
  | cons a body ih =>
      obtain ⟨hFirst, hRest⟩ := not_or.mp (List.mem_cons.not.mp hBody)
      rw [split, if_neg (Ne.symm hFirst)]
      cases body with
      | nil => rfl
      | cons b body => rw [ih hRest (List.cons_ne_nil b body)]

theorem split_line {body : List α} (hBody : newline ∉ body) (rest : List α) :
    split newline (body ++ newline :: rest) = (body ++ [newline]) :: split newline rest := by
  induction body with
  | nil => rw [List.nil_append, split, if_pos rfl, List.nil_append]
  | cons a body ih =>
      obtain ⟨hFirst, hRest⟩ := not_or.mp (List.mem_cons.not.mp hBody)
      rw [List.cons_append, split, if_neg (Ne.symm hFirst), ih hRest, List.cons_append]

theorem flatten_split (newline : α) (text : List α) : (split newline text).flatten = text := by
  induction text using induction newline with
  | last body hBody =>
      cases body with
      | nil => rfl
      | cons a body => rw [split_body hBody (List.cons_ne_nil a body), List.flatten_singleton]
  | line body rest hBody ih =>
      rw [split_line hBody, List.flatten_cons, ih, List.append_assoc, List.singleton_append]

/-- All lines but the last one have their end. -/
theorem complete_of_mem_dropLast (text : List α) :
    ∀ line ∈ (split newline text).dropLast, Complete newline line := by
  induction text using induction newline with
  | last body hBody =>
      intro line hMem
      cases body with
      | nil => cases hMem
      | cons a body =>
          rw [split_body hBody (List.cons_ne_nil a body), List.dropLast_singleton] at hMem
          cases hMem
  | line body rest hBody ih =>
      intro line hMem
      rw [split_line hBody] at hMem
      cases hRest : split newline rest with
      | nil =>
          rw [hRest, List.dropLast_singleton] at hMem
          cases hMem
      | cons next more =>
          rw [hRest, List.dropLast_cons_cons] at hMem
          rcases List.mem_cons.mp hMem with rfl | hLater
          · exact ⟨body, hBody, rfl⟩
          · rw [hRest] at ih
            exact ih line hLater

omit [DecidableEq α] in
theorem unfinished_body_iff {body : List α} (hBody : newline ∉ body) :
    Unfinished newline body ↔ body ≠ [] := by
  refine ⟨And.left, fun hSome => ⟨hSome, fun hLast => hBody ?_⟩⟩
  exact List.mem_of_getLast? hLast

omit [DecidableEq α] in
theorem unfinished_line_iff (body rest : List α) :
    Unfinished newline (body ++ newline :: rest) ↔ Unfinished newline rest := by
  unfold Unfinished
  rw [List.getLast?_append, List.getLast?_cons]
  cases rest with
  | nil => simp
  | cons a rest => simp [List.getLast?_cons]

/-- Behind a text whose last line has its end, other lines follow, and all its lines are
complete. -/
theorem split_append_of_finished {text : List α} (hFinished : ¬ Unfinished newline text) :
    (∀ more, split newline (text ++ more) = split newline text ++ split newline more) ∧
      ∀ line ∈ split newline text, Complete newline line := by
  induction text using induction newline with
  | last body hBody =>
      have hNil : body = [] := by
        by_contra hSome
        exact hFinished ((unfinished_body_iff hBody).mpr hSome)
      subst hNil
      exact ⟨fun more => rfl, fun line hMem => by cases hMem⟩
  | line body rest hBody ih =>
      rw [unfinished_line_iff] at hFinished
      obtain ⟨hMore, hAll⟩ := ih hFinished
      rw [split_line hBody]
      constructor
      · intro more
        rw [List.append_assoc, List.cons_append, split_line hBody, hMore, List.cons_append]
      · exact List.forall_mem_cons.mpr ⟨⟨body, hBody, rfl⟩, hAll⟩

/-- An unfinished last line takes what follows the text. -/
theorem split_append_of_unfinished {text : List α} (hUnfinished : Unfinished newline text) :
    ∃ front last, split newline text = front ++ [last] ∧ newline ∉ last ∧ last ≠ [] ∧
      ∀ more, split newline (text ++ more) = front ++ split newline (last ++ more) := by
  induction text using induction newline with
  | last body hBody =>
      exact ⟨[], body, split_body hBody hUnfinished.1, hBody, hUnfinished.1, fun more => rfl⟩
  | line body rest hBody ih =>
      rw [unfinished_line_iff] at hUnfinished
      obtain ⟨front, last, hSplit, hLast, hSome, hMore⟩ := ih hUnfinished
      refine ⟨(body ++ [newline]) :: front, last, ?_, hLast, hSome, fun more => ?_⟩
      · rw [split_line hBody, hSplit, List.cons_append]
      · rw [List.append_assoc, List.cons_append, split_line hBody, hMore, List.cons_append]

end Lines
