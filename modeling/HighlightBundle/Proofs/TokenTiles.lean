import HighlightBundle.Proofs.LoadedRendering
import HighlightBundle.Proofs.ReturnedAnswers

/-!
# Tokens tile the code

The tokens of a code follow one another without overlapping, and what they leave out are the
newlines (`Tiles`). They are made line by line, with a running offset that counts the bytes of the
lines so far and one for each newline; the lines are the pieces between newlines, without them.

That the offset does not drift is an induction over the lines, for any offset of the first one. A
token stands in the joined lines as many bytes behind their beginning as its own offset is behind
the offset of the first line (`exists_around`). A byte of the first line is in its token, the byte
behind it is the newline, and the bytes that follow are those of the other lines
(`ne_newline_iff_covered`). Bytes can be told from newlines because in the encoding of a character
other than the newline no byte is that of the newline (`eq_newline_of_mem`).
-/

namespace HighlightBundle

/-! ### Pieces -/

section Pieces

variable {separator c : Char} {cs piece : List Char}

/-- A character that does not separate belongs to the first piece. -/
theorem pieces_cons_of_ne (h : c ≠ separator) (cs : List Char) :
    ∃ first more, pieces separator cs = first :: more ∧
      pieces separator (c :: cs) = (c :: first) :: more := by
  have hne : pieces separator cs ≠ [] := by
    rw [← List.length_pos_iff, length_pieces]
    exact Nat.succ_pos _
  obtain ⟨first, more, hpieces⟩ := List.exists_cons_of_ne_nil hne
  exact ⟨first, more, hpieces, by rw [pieces, if_neg h, hpieces]⟩

/-- **Joining the pieces gives the text back.** -/
theorem intercalate_pieces (separator : Char) (cs : List Char) :
    [separator].intercalate (pieces separator cs) = cs := by
  have hpieces : pieces separator cs = cs.splitOn separator := by
    induction cs with
    | nil => rfl
    | cons c cs ih =>
      rw [List.splitOn_cons_eq_if_modifyHead, ← ih]
      by_cases h : c = separator
      · rw [pieces, if_pos h, if_pos (beq_iff_eq.2 h)]
      · obtain ⟨first, more, hcs, hcons⟩ := pieces_cons_of_ne h cs
        rw [hcons, hcs, if_neg (h ∘ beq_iff_eq.1)]
        rfl
  rw [hpieces, List.intercalate_splitOn]

/-- No piece has the separator in it. -/
theorem not_mem_of_mem_pieces (h : piece ∈ pieces separator cs) : separator ∉ piece := by
  induction cs generalizing piece with
  | nil =>
    rw [List.mem_singleton.1 h]
    exact List.not_mem_nil
  | cons c cs ih =>
    by_cases hc : c = separator
    · rw [pieces, if_pos hc] at h
      rcases List.mem_cons.1 h with rfl | h
      · exact List.not_mem_nil
      · exact ih h
    · obtain ⟨first, more, hcs, hcons⟩ := pieces_cons_of_ne hc cs
      rw [hcs] at ih
      rw [hcons] at h
      rcases List.mem_cons.1 h with rfl | h
      · exact List.not_mem_cons_of_ne_of_not_mem (Ne.symm hc) (ih List.mem_cons_self)
      · exact ih (List.mem_cons_of_mem _ h)

end Pieces

/-! ### Bytes -/

/-- The byte of a newline occurs in the encoding of a newline only. -/
theorem eq_newline_of_mem {c : Char} (h : (10 : UInt8) ∈ String.utf8EncodeChar c) : c = '\n' := by
  have hval : c.val.toNat = 10 := by
    simp only [String.utf8EncodeChar] at h
    generalize c.val.toNat = n at h ⊢
    -- the bytes of longer encodings are greater than 127
    split_ifs at h <;> simp [← UInt8.toNat_inj] at h <;> omega
  exact Char.ext (UInt32.toNat_inj.1 hval)

/-- A text without newlines has no byte of a newline. -/
theorem getElem_ne_newline {line : List Char} (h : '\n' ∉ line) {i : Nat}
    (hi : i < (String.ofList line).toByteArray.size) :
    (String.ofList line).toByteArray[i] ≠ 10 := by
  intro hbyte
  simp only [String.toByteArray_ofList, List.utf8Encode, List.getElem_toByteArray] at hbyte
  obtain ⟨c, hc, hmem⟩ := List.mem_flatMap.1 (List.mem_of_getElem hbyte)
  exact h (eq_newline_of_mem hmem ▸ hc)

section Bytes

variable {front back : String} {i : Nat}

theorem size_behind_newline (front : String) :
    (front.toByteArray ++ "\n".toByteArray).size = front.utf8ByteSize + 1 :=
  ByteArray.size_append

/-- The byte behind a text is that of the newline behind it. -/
theorem getElem_newline (hi : i < (front ++ "\n" ++ back).toByteArray.size)
    (h : i = front.utf8ByteSize) : (front ++ "\n" ++ back).toByteArray[i] = 10 := by
  have hlt : i < (front.toByteArray ++ "\n".toByteArray).size := by
    rw [size_behind_newline, h]
    exact Nat.lt_succ_self _
  have hindex : i - front.toByteArray.size = 0 := Nat.sub_eq_zero_of_le (Nat.le_of_eq h)
  simp only [String.toByteArray_append, ByteArray.getElem_append_left hlt,
    ByteArray.getElem_append_right (Nat.le_of_eq h.symm), hindex]
  rfl

/-- The bytes that follow the newline are those of the other text. -/
theorem getElem_behind_newline {j : Nat} (hi : i < (front ++ "\n" ++ back).toByteArray.size)
    (h : i = front.utf8ByteSize + 1 + j) : ∃ hj : j < back.toByteArray.size,
      (front ++ "\n" ++ back).toByteArray[i] = back.toByteArray[j] := by
  have hsize : (front ++ "\n" ++ back).toByteArray.size =
      front.utf8ByteSize + 1 + back.toByteArray.size := by
    rw [String.toByteArray_append, String.toByteArray_append, ByteArray.size_append,
      size_behind_newline]
  have hle : (front.toByteArray ++ "\n".toByteArray).size ≤ i := by
    rw [size_behind_newline, h]
    exact Nat.le_add_right _ _
  have hindex : i - (front.toByteArray ++ "\n".toByteArray).size = j := by
    rw [size_behind_newline, h, Nat.add_sub_cancel_left]
  refine ⟨by omega, ?_⟩
  simp only [String.toByteArray_append, ByteArray.getElem_append_right hle, hindex]

end Bytes

/-! ### Lines -/

/-- The text of lines, with newlines between them. -/
def joinLines (lines : List (List Char)) : String :=
  "\n".intercalate (lines.map String.ofList)

theorem joinLines_pieces (code : String) : joinLines (pieces '\n' code.toList) = code := by
  have hchars : (pieces '\n' code.toList).map (String.toList ∘ String.ofList) =
      pieces '\n' code.toList := List.map_id'' (fun _ ↦ String.toList_ofList) _
  rw [← String.toList_inj, joinLines, String.toList_intercalate, List.map_map, hchars]
  exact intercalate_pieces '\n' code.toList

theorem joinLines_cons {rest : List (List Char)} (line : List Char) (h : rest ≠ []) :
    joinLines (line :: rest) = String.ofList line ++ "\n" ++ joinLines rest :=
  String.intercalate_cons_of_ne_nil (mt List.map_eq_nil_iff.1 h)

/-- The first line stands at the beginning. -/
theorem exists_joinLines_cons (line : List Char) (rest : List (List Char)) :
    ∃ back, joinLines (line :: rest) = String.ofList line ++ back := by
  rcases eq_or_ne rest [] with rfl | h
  · exact ⟨"", String.append_empty.symm⟩
  · exact ⟨"\n" ++ joinLines rest, by rw [joinLines_cons line h, String.append_assoc]⟩

namespace Token

/-- Where the token ends, counted in bytes. -/
def stop (token : Token) : Nat := token.offset + token.content.utf8ByteSize

/-- The token stands in the code where it says it does. -/
def StandsIn (token : Token) (code : String) : Prop :=
  ∃ front back, code = front ++ token.content ++ back ∧ token.offset = front.utf8ByteSize

variable {token : Token} {code : String}

theorem StandsIn.stop_le (h : token.StandsIn code) : token.stop ≤ code.utf8ByteSize := by
  obtain ⟨front, back, rfl, hoffset⟩ := h
  rw [stop, hoffset, String.utf8ByteSize_append, String.utf8ByteSize_append]
  exact Nat.le_add_right _ _

/-- The bytes of the code at its place are those of its text. -/
theorem StandsIn.extract_eq (h : token.StandsIn code) :
    code.toByteArray.extract token.offset token.stop = token.content.toByteArray := by
  obtain ⟨front, back, rfl, hoffset⟩ := h
  rw [stop, hoffset, String.append_assoc, String.toByteArray_append, String.toByteArray_append]
  exact (ByteArray.extract_append_size_add (i := 0)).trans (ByteArray.extract_append_eq_left rfl)

end Token

/-- The tokens of the lines are the code without its newlines, cut at the newlines. -/
structure Tiles (code : String) (lines : List (List Token)) : Prop where
  /-- There is one line more than there are newlines. -/
  length_eq : lines.length = code.toList.count '\n' + 1
  /-- What is in the lines is the code. -/
  joined_eq :
    "\n".intercalate (lines.map fun line ↦ String.join (line.map Token.content)) = code
  nonempty : ∀ token ∈ lines.flatten, token.content ≠ ""
  no_newline : ∀ token ∈ lines.flatten, '\n' ∉ token.content.toList
  within : ∀ token ∈ lines.flatten, token.stop ≤ code.utf8ByteSize
  /-- A token is in the code where it says it is. -/
  bytes_eq : ∀ token ∈ lines.flatten,
    code.toByteArray.extract token.offset token.stop = token.content.toByteArray
  increasing : lines.flatten.Pairwise fun a b ↦ a.offset < b.offset
  disjoint : lines.flatten.Pairwise fun a b ↦ a.stop ≤ b.offset
  /-- A byte is in a token exactly if it is not a newline. -/
  covers : ∀ {i : Nat} (h : i < code.toByteArray.size), code.toByteArray[i] ≠ 10 ↔
    ∃ token ∈ lines.flatten, token.offset ≤ i ∧ i < token.stop
  one_color : ∃ color, ∀ token ∈ lines.flatten, token.color = color

namespace Engine

variable {color : Option String} {offset : Nat} {line : List Char} {lines rest : List (List Char)}
  {token : Token}

/-- The tokens of the lines, one after the other. -/
def tokensFrom (color : Option String) (offset : Nat) (lines : List (List Char)) : List Token :=
  (lineTokens color offset lines).flatten

/-- The offset of the line after the first one. -/
def offsetAfter (offset : Nat) (line : List Char) : Nat :=
  offset + (String.ofList line).utf8ByteSize + 1

theorem tokensFrom_cons (color : Option String) (offset : Nat) (line : List Char)
    (rest : List (List Char)) : tokensFrom color offset (line :: rest) =
      (if line.isEmpty then [] else [⟨String.ofList line, offset, color, none, .none⟩]) ++
        tokensFrom color (offsetAfter offset line) rest :=
  rfl

/-- A token is the whole first line, which is not empty then, or one of the lines that follow. -/
theorem mem_tokensFrom_cons : token ∈ tokensFrom color offset (line :: rest) ↔
    (line ≠ [] ∧ token = ⟨String.ofList line, offset, color, none, .none⟩) ∨
      token ∈ tokensFrom color (offsetAfter offset line) rest := by
  rw [tokensFrom_cons, List.mem_append]
  refine or_congr_left ?_
  rcases line with - | ⟨c, line⟩
  · exact iff_of_false List.not_mem_nil (fun h ↦ h.1 rfl)
  · exact List.mem_singleton.trans (and_iff_right (List.cons_ne_nil c line)).symm

/-- There is a list of tokens for each line. -/
theorem length_lineTokens (color : Option String) (offset : Nat) (lines : List (List Char)) :
    (lineTokens color offset lines).length = lines.length := by
  induction lines generalizing offset with
  | nil => rfl
  | cons line rest ih => exact congrArg Nat.succ (ih _)

/-- The tokens of a line have its text. -/
theorem map_join_lineTokens (color : Option String) (offset : Nat) (lines : List (List Char)) :
    (lineTokens color offset lines).map (fun line ↦ String.join (line.map Token.content)) =
      lines.map String.ofList := by
  induction lines generalizing offset with
  | nil => rfl
  | cons line rest ih =>
    refine congrArg₂ List.cons ?_ (ih _)
    rcases line with - | ⟨c, line⟩
    · rfl
    · exact (String.join_cons.trans (congrArg _ String.join_nil)).trans String.append_empty

/-- A token is a line that is not empty. -/
theorem exists_line_of_mem (h : token ∈ tokensFrom color offset lines) :
    ∃ line ∈ lines, line ≠ [] ∧ token.content = String.ofList line := by
  induction lines generalizing offset with
  | nil => exact absurd h List.not_mem_nil
  | cons line rest ih =>
    rcases mem_tokensFrom_cons.1 h with ⟨hne, rfl⟩ | h
    · exact ⟨line, List.mem_cons_self, hne, rfl⟩
    · obtain ⟨line', hmem, hline'⟩ := ih h
      exact ⟨line', List.mem_cons_of_mem _ hmem, hline'⟩

/-- **A token stands where its offset says**, counted from the first line. -/
theorem exists_around (h : token ∈ tokensFrom color offset lines) :
    ∃ front back, joinLines lines = front ++ token.content ++ back ∧
      token.offset = offset + front.utf8ByteSize := by
  induction lines generalizing offset with
  | nil => exact absurd h List.not_mem_nil
  | cons line rest ih =>
    rcases mem_tokensFrom_cons.1 h with ⟨-, rfl⟩ | h
    · obtain ⟨back, hback⟩ := exists_joinLines_cons line rest
      exact ⟨"", back, by rw [hback, String.empty_append], rfl⟩
    · obtain ⟨front, back, hrest, hoffset⟩ := ih h
      have hne : rest ≠ [] := by
        rintro rfl
        exact absurd h List.not_mem_nil
      refine ⟨String.ofList line ++ "\n" ++ front, back, ?_, ?_⟩
      · rw [joinLines_cons line hne, hrest]
        simp only [String.append_assoc]
      · have hnewline : "\n".utf8ByteSize = 1 := rfl
        rw [hoffset, offsetAfter, String.utf8ByteSize_append, String.utf8ByteSize_append, hnewline]
        omega

/-- So no token is in front of the first line. -/
theorem le_offset (h : token ∈ tokensFrom color offset lines) : offset ≤ token.offset := by
  obtain ⟨front, back, -, hoffset⟩ := exists_around h
  exact hoffset ▸ Nat.le_add_right _ _

/-- A token has a byte. -/
theorem offset_lt_stop (h : token ∈ tokensFrom color offset lines) : token.offset < token.stop := by
  refine Nat.lt_add_of_pos_right (Nat.pos_of_ne_zero fun hzero ↦ ?_)
  obtain ⟨line, -, hne, hcontent⟩ := exists_line_of_mem h
  rw [String.utf8ByteSize_eq_zero_iff, hcontent] at hzero
  exact hne (String.ofList_eq_empty_iff.1 hzero)

/-- A token ends before the next one begins. -/
theorem pairwise_stop_le (color : Option String) (offset : Nat) (lines : List (List Char)) :
    (tokensFrom color offset lines).Pairwise fun a b ↦ a.stop ≤ b.offset := by
  induction lines generalizing offset with
  | nil => exact .nil
  | cons line rest ih =>
    rw [tokensFrom_cons, List.pairwise_append]
    refine ⟨by split <;> simp, ih _, fun a ha b hb ↦ ?_⟩
    have hfrom : offsetAfter offset line ≤ b.offset := le_offset hb
    rcases line with - | ⟨c, line⟩
    · exact absurd ha List.not_mem_nil
    · rw [List.mem_singleton.1 ha]
      exact Nat.le_of_succ_le hfrom

/-- A token covers a byte if it is of the first line and covers it, or of the lines that follow. -/
theorem exists_covers_cons {place : Nat} :
    (∃ token ∈ tokensFrom color offset (line :: rest), token.offset ≤ place ∧ place < token.stop) ↔
      (offset ≤ place ∧ place < offset + (String.ofList line).utf8ByteSize) ∨
        ∃ token ∈ tokensFrom color (offsetAfter offset line) rest,
          token.offset ≤ place ∧ place < token.stop := by
  constructor
  · rintro ⟨token, hmem, hcovers⟩
    rcases mem_tokensFrom_cons.1 hmem with ⟨-, rfl⟩ | hmem
    · exact Or.inl hcovers
    · exact Or.inr ⟨token, hmem, hcovers⟩
  · rintro (hcovers | ⟨token, hmem, hcovers⟩)
    · refine ⟨_, mem_tokensFrom_cons.2 (Or.inl ⟨?_, rfl⟩), hcovers⟩
      rintro rfl
      exact Nat.lt_irrefl offset (Nat.lt_of_le_of_lt hcovers.1 hcovers.2)
    · exact ⟨token, mem_tokensFrom_cons.2 (Or.inr hmem), hcovers⟩

/-- **A byte is in a token exactly if it is not a newline.** -/
theorem ne_newline_iff_covered (color : Option String) (offset : Nat)
    (hclean : ∀ line ∈ lines, '\n' ∉ line) {i : Nat}
    (hi : i < (joinLines lines).toByteArray.size) : (joinLines lines).toByteArray[i] ≠ 10 ↔
      ∃ token ∈ tokensFrom color offset lines,
        token.offset ≤ offset + i ∧ offset + i < token.stop := by
  induction lines generalizing offset i with
  | nil => exact absurd hi (Nat.not_lt_zero i)
  | cons line rest ih =>
    rw [exists_covers_cons]
    rcases Nat.lt_or_ge i (String.ofList line).utf8ByteSize with hlt | hge
    · -- a byte of the first line
      obtain ⟨back, hback⟩ := exists_joinLines_cons line rest
      simp only [hback, String.toByteArray_append, ByteArray.getElem_append_left hlt]
      refine iff_of_true (getElem_ne_newline (hclean line List.mem_cons_self) hlt) (Or.inl ?_)
      exact ⟨Nat.le_add_right _ _, Nat.add_lt_add_left hlt offset⟩
    · have hne : rest ≠ [] := by
        rintro rfl
        exact absurd hi (Nat.not_lt.2 hge)
      simp only [joinLines_cons line hne] at hi ⊢
      rcases Nat.eq_or_lt_of_le hge with heq | hgt
      · -- the newline behind it
        refine iff_of_false (fun h ↦ h (getElem_newline hi heq.symm)) ?_
        rintro (⟨-, hcovers⟩ | ⟨token, hmem, hcovers, -⟩)
        · omega
        · have hfrom := le_offset hmem
          rw [offsetAfter] at hfrom
          omega
      · -- a byte of the lines that follow
        obtain ⟨j, hj⟩ := Nat.exists_eq_add_of_le (Nat.succ_le_of_lt hgt)
        have hlater : offset + i = offsetAfter offset line + j := by
          rw [offsetAfter]
          omega
        obtain ⟨hrest, hbyte⟩ := getElem_behind_newline hi hj
        rw [hbyte, hlater, ih _ (fun line' h ↦ hclean line' (List.mem_cons_of_mem _ h)) hrest]
        refine (or_iff_right ?_).symm
        rintro ⟨-, hcovers⟩
        rw [offsetAfter] at hcovers
        omega

/-! ### All the code -/

theorem standsIn_of_mem {code : String}
    (h : token ∈ tokensFrom color 0 (pieces '\n' code.toList)) : token.StandsIn code := by
  obtain ⟨front, back, hcode, hoffset⟩ := exists_around h
  rw [joinLines_pieces] at hcode
  exact ⟨front, back, hcode, hoffset.trans (Nat.zero_add _)⟩

/-- **The tokens of the pieces of a code tile it.** -/
theorem tiles_lineTokens (color : Option String) (code : String) :
    Tiles code (lineTokens color 0 (pieces '\n' code.toList)) where
  length_eq := by rw [length_lineTokens, length_pieces]
  joined_eq := by
    rw [map_join_lineTokens]
    exact joinLines_pieces code
  nonempty := fun token h ↦ by
    obtain ⟨line, -, hne, hcontent⟩ := exists_line_of_mem h
    rw [hcontent]
    exact fun hempty ↦ hne (String.ofList_eq_empty_iff.1 hempty)
  no_newline := fun token h ↦ by
    obtain ⟨line, hline, -, hcontent⟩ := exists_line_of_mem h
    rw [hcontent, String.toList_ofList]
    exact not_mem_of_mem_pieces hline
  within := fun token h ↦ (standsIn_of_mem h).stop_le
  bytes_eq := fun token h ↦ (standsIn_of_mem h).extract_eq
  increasing := by
    refine (pairwise_stop_le color 0 _).imp_of_mem fun {a b} ha _ hab ↦ ?_
    exact Nat.lt_of_lt_of_le (offset_lt_stop ha) hab
  disjoint := pairwise_stop_le color 0 _
  covers := fun {i} h ↦ by
    have hclean : ∀ line ∈ pieces '\n' code.toList, '\n' ∉ line := fun _ ↦ not_mem_of_mem_pieces
    have hcovers := fun hi : i < (joinLines (pieces '\n' code.toList)).toByteArray.size ↦
      ne_newline_iff_covered color 0 hclean hi
    simp only [joinLines_pieces, Nat.zero_add] at hcovers
    exact hcovers h
  one_color := by
    refine ⟨color, fun token h ↦ ?_⟩
    obtain ⟨line, hline, htoken⟩ := List.mem_flatten.1 h
    exact color_of_mem_lineTokens line hline token htoken

/-- **Tokens tile the code.** Whatever engine gives the tokens of a code, and whatever call returns
them, alone or among others: there is one line more than there are newlines, what is in the lines is
the code, and the tokens are pieces of the code which stand where they say they do, one behind the
other, and leave out the newlines only. -/
theorem tokens_tile_the_code (code : String) :
    (∀ (engine : Engine) (language theme : String) (lines : List (List Token)),
      engine.tokens code language theme = .ok lines → Tiles code lines) ∧
    ∀ (language : LanguageReference) (theme : ThemeReference) (lines : List (List Token)),
      Shared.Returned (.tokens code language theme) (.tokens lines) → Tiles code lines := by
  have hengine : ∀ (engine : Engine) (language theme : String) (lines : List (List Token)),
      engine.tokens code language theme = .ok lines → Tiles code lines := by
    intro engine language theme lines h
    obtain ⟨name, -, h⟩ := bind_eq_ok_iff.1 h
    obtain ⟨found, -, h⟩ := bind_eq_ok_iff.1 h
    obtain rfl := Except.ok.inj h
    exact tiles_lineTokens found.foreground? code
  refine ⟨hengine, fun language theme lines h ↦ ?_⟩
  obtain ⟨engine, languageName, themeName, htokens⟩ := h.exists_tokens
  exact hengine engine languageName themeName lines htokens

/-- The code begins with a newline, has an empty line, and a character of two bytes. -/
theorem tokens_tile_the_code_of_empty_lines :
    Shared.Returned (.tokens "\né\n\nab" .plaintext (.inline Sample.day)) (.tokens
      [[], [⟨"é", 1, none, none, .none⟩], [], [⟨"ab", 5, none, none, .none⟩]]) ∧
    Tiles "\né\n\nab" [[], [⟨"é", 1, none, none, .none⟩], [], [⟨"ab", 5, none, none, .none⟩]] := by
  have hreturned : Shared.Returned (.tokens "\né\n\nab" .plaintext (.inline Sample.day)) (.tokens
      [[], [⟨"é", 1, none, none, .none⟩], [], [⟨"ab", 5, none, none, .none⟩]]) :=
    .alone (show ((Shared.ofBundle ⟨.empty, .empty⟩ none).run .fresh _).1 = _ from rfl)
  exact ⟨hreturned, (tokens_tile_the_code _).2 _ _ _ hreturned⟩

end Engine

end HighlightBundle
