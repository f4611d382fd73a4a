import MeridianPostgreSQL.Json

/-! # Texts of JSON values

A text that determines its value, wherever it stands in a longer one. -/

namespace MeridianPostgreSQL

/-- A text cannot be mistaken for another, whatever follows it. -/
def Determines {α : Type} (text : α → List Char) : Prop :=
  ∀ left right rest others, text left ++ rest = text right ++ others →
    left = right ∧ rest = others

namespace Json

/-! ## Parts -/

/-- A number in strokes, closed by a point. -/
def countText : Nat → List Char
  | 0 => ['.']
  | count + 1 => '|' :: countText count

theorem countText_determines : Determines countText := by
  intro left
  induction left with
  | zero =>
      intro right rest others equal
      cases right with
      | zero => exact ⟨rfl, (List.cons.inj equal).2⟩
      | succ right => simp [countText] at equal
  | succ left induction =>
      intro right rest others equal
      cases right with
      | zero => simp [countText] at equal
      | succ right =>
          rcases induction right rest others (List.cons.inj equal).2 with ⟨same, remaining⟩
          exact ⟨congrArg Nat.succ same, remaining⟩

def charactersText : List Char → List Char
  | [] => ['.']
  | character :: rest => '|' :: (countText character.toNat ++ charactersText rest)

theorem charactersText_determines : Determines charactersText := by
  intro left
  induction left with
  | nil =>
      intro right rest others equal
      cases right with
      | nil => exact ⟨rfl, (List.cons.inj equal).2⟩
      | cons character right => simp [charactersText] at equal
  | cons character left induction =>
      intro right rest others equal
      cases right with
      | nil => simp [charactersText] at equal
      | cons other right =>
          simp only [charactersText, List.cons_append, List.cons.injEq, true_and,
            List.append_assoc] at equal
          rcases countText_determines _ _ _ _ equal with ⟨code, remaining⟩
          rcases induction right rest others remaining with ⟨same, last⟩
          rw [Char.toNat_inj.mp code, same]
          exact ⟨rfl, last⟩

def stringText (text : String) : List Char := charactersText text.toList

theorem stringText_determines : Determines stringText := by
  intro left right rest others equal
  rcases charactersText_determines _ _ _ _ equal with ⟨same, remaining⟩
  exact ⟨String.toList_injective same, remaining⟩

def intText : Int → List Char
  | .ofNat count => '+' :: countText count
  | .negSucc count => '-' :: countText count

theorem intText_determines : Determines intText := by
  intro left right rest others equal
  cases left with
  | ofNat left =>
      cases right with
      | ofNat right =>
          rcases countText_determines _ _ _ _ (List.cons.inj equal).2 with ⟨same, remaining⟩
          exact ⟨congrArg Int.ofNat same, remaining⟩
      | negSucc right => simp [intText] at equal
  | negSucc left =>
      cases right with
      | ofNat right => simp [intText] at equal
      | negSucc right =>
          rcases countText_determines _ _ _ _ (List.cons.inj equal).2 with ⟨same, remaining⟩
          exact ⟨congrArg Int.negSucc same, remaining⟩

def ratText (value : Rat) : List Char := intText value.num ++ countText value.den

theorem ratText_determines : Determines ratText := by
  intro left right rest others equal
  simp only [ratText, List.append_assoc] at equal
  rcases intText_determines _ _ _ _ equal with ⟨numerators, remaining⟩
  rcases countText_determines _ _ _ _ remaining with ⟨denominators, last⟩
  exact ⟨Rat.ext numerators denominators, last⟩

/-! ## Values -/

mutual

def text : Json → List Char
  | .null => ['n']
  | .bool true => ['t']
  | .bool false => ['f']
  | .int value => 'i' :: intText value
  | .float value => 'd' :: ratText value
  | .string value => 's' :: stringText value
  | .array items => 'a' :: itemsText items
  | .object members => 'o' :: membersText members

def itemsText : List Json → List Char
  | [] => ['.']
  | item :: items => '|' :: (text item ++ itemsText items)

def membersText : List (String × Json) → List Char
  | [] => ['.']
  | (name, value) :: members =>
      '|' :: (stringText name ++ (text value ++ membersText members))

end

mutual

theorem text_determines : ∀ (left right : Json) (rest others : List Char),
    text left ++ rest = text right ++ others → left = right ∧ rest = others
  | .null, right, rest, others, equal => by
      rcases right with _ | (_ | _) | _ | _ | _ | _ | _ <;> simp_all [text]
  | .bool left, right, rest, others, equal => by
      cases left <;> rcases right with _ | (_ | _) | _ | _ | _ | _ | _ <;> simp_all [text]
  | .int left, right, rest, others, equal => by
      rcases right with _ | (_ | _) | right | _ | _ | _ | _ <;> simp [text] at equal
      rcases intText_determines _ _ _ _ equal with ⟨same, remaining⟩
      exact ⟨congrArg Json.int same, remaining⟩
  | .float left, right, rest, others, equal => by
      rcases right with _ | (_ | _) | _ | right | _ | _ | _ <;> simp [text] at equal
      rcases ratText_determines _ _ _ _ equal with ⟨same, remaining⟩
      exact ⟨congrArg Json.float same, remaining⟩
  | .string left, right, rest, others, equal => by
      rcases right with _ | (_ | _) | _ | _ | right | _ | _ <;> simp [text] at equal
      rcases stringText_determines _ _ _ _ equal with ⟨same, remaining⟩
      exact ⟨congrArg Json.string same, remaining⟩
  | .array left, right, rest, others, equal => by
      rcases right with _ | (_ | _) | _ | _ | _ | right | _ <;> simp [text] at equal
      rcases itemsText_determines left right rest others equal with ⟨same, remaining⟩
      exact ⟨congrArg Json.array same, remaining⟩
  | .object left, right, rest, others, equal => by
      rcases right with _ | (_ | _) | _ | _ | _ | _ | right <;> simp [text] at equal
      rcases membersText_determines left right rest others equal with ⟨same, remaining⟩
      exact ⟨congrArg Json.object same, remaining⟩

theorem itemsText_determines : ∀ (left right : List Json) (rest others : List Char),
    itemsText left ++ rest = itemsText right ++ others → left = right ∧ rest = others
  | [], right, rest, others, equal => by
      cases right <;> simp_all [itemsText]
  | item :: left, [], rest, others, equal => by
      simp [itemsText] at equal
  | item :: left, other :: right, rest, others, equal => by
      simp only [itemsText, List.cons_append, List.cons.injEq, true_and,
        List.append_assoc] at equal
      rcases text_determines item other _ _ equal with ⟨same, remaining⟩
      rcases itemsText_determines left right rest others remaining with ⟨items, last⟩
      rw [same, items]
      exact ⟨rfl, last⟩

theorem membersText_determines : ∀ (left right : List (String × Json))
    (rest others : List Char), membersText left ++ rest = membersText right ++ others →
      left = right ∧ rest = others
  | [], right, rest, others, equal => by
      cases right <;> simp_all [membersText]
  | (name, value) :: left, [], rest, others, equal => by
      simp [membersText] at equal
  | (name, value) :: left, (other, held) :: right, rest, others, equal => by
      simp only [membersText, List.cons_append, List.cons.injEq, true_and,
        List.append_assoc] at equal
      rcases stringText_determines name other _ _ equal with ⟨names, remaining⟩
      rcases text_determines value held _ _ remaining with ⟨values, further⟩
      rcases membersText_determines left right rest others further with ⟨members, last⟩
      rw [names, values, members]
      exact ⟨rfl, last⟩

end

/-- The whole text as a string. -/
def asText (value : Json) : String := String.ofList value.text

theorem asText_injective : Function.Injective asText := by
  intro left right equal
  have same : left.text = right.text := String.ofList_injective equal
  exact (text_determines left right [] [] (by rw [same])).1

end Json

end MeridianPostgreSQL
