import BearerGate.Proofs.Json.Literal

namespace BearerGate

namespace Table

variable {α : Type}

theorem put_of_not_mem {name : Text} {value : α} {t : Table α} (h : name ∉ t.map Prod.fst) :
    put name value t = t ++ [(name, value)] := by
  induction t with
  | nil => rfl
  | cons m t ih =>
    obtain ⟨hne, hrest⟩ := not_or.mp (mt List.mem_cons.mpr h)
    rw [put, if_neg (Ne.symm hne), ih hrest, List.cons_append]

theorem foldl_put_of_nodup {done pairs : List (Text × α)}
    (h : ((done ++ pairs).map Prod.fst).Nodup) :
    pairs.foldl (fun t (k, v) => put k v t) done = done ++ pairs := by
  induction pairs generalizing done with
  | nil => rw [List.foldl_nil, List.append_nil]
  | cons m pairs ih =>
    obtain ⟨k, v⟩ := m
    have hnew : k ∉ done.map Prod.fst := by
      intro hmem
      rw [List.map_append, List.nodup_append] at h
      exact h.2.2 k hmem k List.mem_cons_self rfl
    have hmoved : ((done ++ [(k, v)] ++ pairs).map Prod.fst).Nodup := by simpa using h
    have hput : put k v done = done ++ [(k, v)] := put_of_not_mem hnew
    rw [List.foldl_cons]
    dsimp only
    rw [hput, ih hmoved, List.append_assoc]
    rfl

theorem ofPairs_of_nodup {pairs : List (Text × α)} (h : (pairs.map Prod.fst).Nodup) :
    ofPairs pairs = pairs :=
  foldl_put_of_nodup h

end Table

namespace Json

variable {s t g rest : Text} {ts : List Text} {c : CodePoint} {fuel : Nat}

def Gap (g : Text) : Prop := ∀ c ∈ g, isGap c = true

theorem skipGaps_append (hg : Gap g) (hc : isGap c = false) :
    skipGaps (g ++ c :: rest) = c :: rest := by
  rw [skipGaps, List.dropWhile_append_of_pos hg, List.dropWhile_cons_of_neg (by simp [hc])]

theorem skipGaps_cons (hc : isGap c = false) : skipGaps (c :: rest) = c :: rest :=
  List.dropWhile_cons_of_neg (by simp [hc])

theorem readValue_of_readString {depth : Nat} (h : readString (.quote :: s) = .ok (t, rest)) :
    readValue depth (.quote :: s) = .ok (.str t, rest) := by
  have hlist : CodePoint.quote ≠ '[' := by decide
  have hobject : CodePoint.quote ≠ '{' := by decide
  cases depth with
  | zero => simp [readValue, hlist, hobject, h, Except.map]
  | succ depth => simp [readValue, hlist, hobject, h, Except.map]

/-- The items of a list of texts with what stands between and behind them. -/
inductive Items : Text → List Text → Prop
  | last {s t g : Text} (h : Literal s t) (hg : Gap g) : Items (.quote :: (s ++ .quote :: g)) [t]
  | cons {s t g g' rest : Text} {ts : List Text} (h : Literal s t) (hg : Gap g) (hg' : Gap g')
    (hrest : Items rest ts) :
    Items (.quote :: (s ++ .quote :: (g ++ (',' : CodePoint) :: (g' ++ rest)))) (t :: ts)

/-- A list of texts in any layout. -/
inductive ListOf : Text → List Text → Prop
  | empty {g : Text} (hg : Gap g) : ListOf (('[' : CodePoint) :: (g ++ [(']' : CodePoint)])) []
  | items {g s : Text} {ts : List Text} (hg : Gap g) (h : Items s ts) :
    ListOf (('[' : CodePoint) :: (g ++ (s ++ [(']' : CodePoint)]))) ts

theorem Items.head (h : Items s ts) : ∃ rest, s = .quote :: rest := by
  cases h <;> exact ⟨_, rfl⟩

/-- The items are read one by one, by whatever reads each of them. -/
theorem Items.readItems {item : Text → Reading} (h : Items s ts)
    (hitem : ∀ s t rest, Literal s t → item (.quote :: (s ++ .quote :: rest)) = .ok (.str t, rest))
    (rest : Text) (hfuel : s.length < fuel) :
    readItems item fuel (s ++ (']' : CodePoint) :: rest) = .ok (ts.map .str, rest) := by
  have hbracket : isGap (']' : CodePoint) = false := by decide
  have hcomma : isGap (',' : CodePoint) = false := by decide
  have hquote : isGap .quote = false := by decide
  induction h generalizing fuel with
  | @last s t g h hg =>
    obtain ⟨fuel, rfl⟩ : ∃ k, fuel = k + 1 := ⟨fuel - 1, by omega⟩
    have hread := hitem s t (g ++ (']' : CodePoint) :: rest) h
    simp only [List.cons_append, List.append_assoc, Json.readItems, hread,
      skipGaps_append hg hbracket, if_true, List.map_cons, List.map_nil]
  | @cons s t g g' more ts h hg hg' hmore ih =>
    obtain ⟨fuel, rfl⟩ : ∃ k, fuel = k + 1 := ⟨fuel - 1, by omega⟩
    have hread := hitem s t
      (g ++ (',' : CodePoint) :: (g' ++ (more ++ (']' : CodePoint) :: rest))) h
    -- Every item is longer than nothing, so the turns that are left suffice for the others.
    have hshort : more.length < fuel := by
      simp only [List.length_cons, List.length_append] at hfuel
      omega
    have hne : (',' : CodePoint) ≠ ']' := by decide
    obtain ⟨tail, htail⟩ := hmore.head
    have hskip : skipGaps (g' ++ (more ++ (']' : CodePoint) :: rest)) =
        more ++ (']' : CodePoint) :: rest := by
      rw [htail]
      exact skipGaps_append hg' hquote
    simp only [List.cons_append, List.append_assoc, Json.readItems, hread,
      skipGaps_append hg hcomma, if_neg hne, if_true, hskip, ih hshort, List.map_cons]

theorem readValue_bracket (depth : Nat) (s : Text) :
    readValue (depth + 1) (('[' : CodePoint) :: s) = readList (readValue depth) s := rfl

theorem ListOf.readValue (h : ListOf s ts) (depth : Nat) :
    readValue (depth + 1) s = .ok (.arr (ts.map .str), []) := by
  have hbracket : isGap (']' : CodePoint) = false := by decide
  have hquote : isGap .quote = false := by decide
  have hne : CodePoint.quote ≠ ']' := by decide
  cases h with
  | empty hg =>
    rw [readValue_bracket]
    simp only [Json.readList, skipGaps_append hg hbracket, if_true, List.map_nil]
  | @items g s ts hg h =>
    have hitem : ∀ s t rest, Literal s t →
        Json.readValue depth (.quote :: (s ++ .quote :: rest)) = .ok (.str t, rest) :=
      fun _ _ _ h => readValue_of_readString (h.readString _)
    obtain ⟨tail, htail⟩ := h.head
    have hread : Json.readItems (Json.readValue depth) ((tail ++ [(']' : CodePoint)]).length + 1)
        (s ++ [(']' : CodePoint)]) = .ok (ts.map .str, []) := by
      apply h.readItems hitem []
      rw [htail]
      simp
    rw [htail, List.cons_append] at hread
    rw [readValue_bracket, htail, List.cons_append]
    simp only [Json.readList, skipGaps_append hg hquote, if_neg hne, hread, Except.map]

theorem ListOf.head? (h : ListOf s ts) : s.head? = some ('[' : CodePoint) := by
  cases h <;> rfl

theorem ListOf.getLast? (h : ListOf s ts) : s.getLast? = some (']' : CodePoint) := by
  cases h with
  | @empty g _ => exact @List.getLast?_concat _ (('[' : CodePoint) :: g) _
  | @items g s _ _ _ =>
    rw [← List.append_assoc]
    exact @List.getLast?_concat _ (('[' : CodePoint) :: (g ++ s)) _

theorem ListOf.read (h : ListOf s ts) : read s = .ok (.arr (ts.map .str)) := by
  obtain ⟨rest, hrest⟩ := List.head?_eq_some_iff.mp h.head?
  have hskip : skipGaps s = s := by
    rw [hrest]
    exact skipGaps_cons (by decide)
  have hread : Json.readValue nestingLimit s = .ok (.arr (ts.map .str), []) := h.readValue 989
  rw [Json.read, hskip, hread]
  rfl

theorem writeItems_cons_cons (t u : Text) (ts : List Text) :
    writeItems ((t :: u :: ts).map .str) =
      writeString t ++ (',' : CodePoint) :: writeItems ((u :: ts).map .str) := by
  have hcomma : Text.ofString "," = [(',' : CodePoint)] := rfl
  simp only [List.map_cons, writeItems, write, hcomma, List.append_assoc, List.cons_append,
    List.nil_append]

theorem items_writeItems (t : Text) (ts : List Text) :
    Items (writeItems ((t :: ts).map .str)) (t :: ts) := by
  have hnone : Gap [] := by simp [Gap]
  induction ts generalizing t with
  | nil => exact .last (literal_escape t) hnone
  | cons u ts ih =>
    have hitems := Items.cons (literal_escape t) hnone hnone (ih u)
    rw [writeItems_cons_cons, writeString, List.append_assoc]
    exact hitems

/-- What is written for a list of texts is one layout of it. -/
theorem listOf_write (ts : List Text) : ListOf (write (.arr (ts.map .str))) ts := by
  have hnone : Gap [] := by simp [Gap]
  cases ts with
  | nil => exact .empty hnone
  | cons t ts => exact .items hnone (items_writeItems t ts)

def ofTexts (members : List (Text × Text)) : Members := members.map fun (k, v) => (k, .str v)

theorem writeMembers_singleton (k v : Text) :
    writeMembers (ofTexts [(k, v)]) = writeString k ++ (':' : CodePoint) :: writeString v := by
  have hcolon : Text.ofString ":" = [(':' : CodePoint)] := rfl
  simp only [ofTexts, List.map_cons, List.map_nil, writeMembers, write, hcolon, List.append_assoc,
    List.cons_append, List.nil_append]

theorem writeMembers_cons_cons (k v : Text) (m : Text × Text) (ms : List (Text × Text)) :
    writeMembers (ofTexts ((k, v) :: m :: ms)) = writeString k ++ (':' : CodePoint) ::
      (writeString v ++ (',' : CodePoint) :: writeMembers (ofTexts (m :: ms))) := by
  have hcolon : Text.ofString ":" = [(':' : CodePoint)] := rfl
  have hcomma : Text.ofString "," = [(',' : CodePoint)] := rfl
  simp only [ofTexts, List.map_cons, writeMembers, write, hcolon, hcomma, List.append_assoc,
    List.cons_append, List.nil_append]

theorem writeMembers_head (m : Text × Text) (ms : List (Text × Text)) :
    ∃ rest, writeMembers (ofTexts (m :: ms)) = .quote :: rest := by
  cases ms with
  | nil => exact ⟨_, writeMembers_singleton m.1 m.2⟩
  | cons m' ms => exact ⟨_, writeMembers_cons_cons m.1 m.2 m' ms⟩

theorem length_le_writeMembers (m : Text × Text) (ms : List (Text × Text)) :
    ms.length ≤ (writeMembers (ofTexts (m :: ms))).length := by
  induction ms generalizing m with
  | nil => exact Nat.zero_le _
  | cons m' ms ih =>
    have hrest := ih m'
    rw [writeMembers_cons_cons]
    simp only [List.length_cons, List.length_append]
    omega

/-- The members are read one by one, by whatever reads each value. -/
theorem readMembers_writeMembers {item : Text → Reading}
    (hitem : ∀ t rest, item (writeString t ++ rest) = .ok (.str t, rest))
    (m : Text × Text) (ms : List (Text × Text)) (rest : Text) (hfuel : ms.length < fuel) :
    readMembers item fuel (writeMembers (ofTexts (m :: ms)) ++ ('}' : CodePoint) :: rest) =
      .ok (ofTexts (m :: ms), rest) := by
  have hcolon : isGap (':' : CodePoint) = false := by decide
  have hcomma : isGap (',' : CodePoint) = false := by decide
  have hbrace : isGap ('}' : CodePoint) = false := by decide
  have hquote : isGap .quote = false := by decide
  have hvalue : ∀ t rest, skipGaps (writeString t ++ rest) = writeString t ++ rest :=
    fun _ _ => skipGaps_cons hquote
  induction ms generalizing m fuel with
  | nil =>
    obtain ⟨fuel, rfl⟩ : ∃ k, fuel = k + 1 := ⟨fuel - 1, by omega⟩
    rw [writeMembers_singleton, List.append_assoc, List.cons_append, readMembers]
    simp only [readString_writeString, skipGaps_cons hcolon, if_true, hvalue, hitem,
      skipGaps_cons hbrace]
    rfl
  | cons m' ms ih =>
    obtain ⟨fuel, rfl⟩ : ∃ k, fuel = k + 1 := ⟨fuel - 1, by omega⟩
    have hshort : ms.length < fuel := by
      rw [List.length_cons] at hfuel
      omega
    have hne : (',' : CodePoint) ≠ '}' := by decide
    have hread := ih m' hshort
    obtain ⟨tail, htail⟩ := writeMembers_head m' ms
    rw [htail, List.cons_append] at hread
    rw [writeMembers_cons_cons, htail]
    simp only [List.append_assoc, List.cons_append, readMembers, readString_writeString,
      skipGaps_cons hcolon, if_true, hvalue, hitem, skipGaps_cons hcomma, if_neg hne,
      skipGaps_cons hquote, hread]
    rfl

theorem readValue_brace (depth : Nat) (s : Text) :
    readValue (depth + 1) (('{' : CodePoint) :: s) = readObject (readValue depth) s := rfl

theorem read_write_ofTexts {members : List (Text × Text)} (h : (members.map Prod.fst).Nodup) :
    read (write (.obj (ofTexts members))) = .ok (.obj (ofTexts members)) := by
  have hwrite : write (.obj (ofTexts members)) =
      ('{' : CodePoint) :: (writeMembers (ofTexts members) ++ [('}' : CodePoint)]) := rfl
  have hread : readValue nestingLimit (write (.obj (ofTexts members))) =
      .ok (.obj (ofTexts members), []) := by
    rw [hwrite]
    change readValue (989 + 1) _ = _
    rw [readValue_brace]
    cases members with
    | nil => rfl
    | cons m ms =>
      have hitem : ∀ t rest, readValue 989 (writeString t ++ rest) = .ok (.str t, rest) :=
        fun t rest => readValue_of_readString (readString_writeString t rest)
      have hnodup : ((ofTexts (m :: ms)).map Prod.fst).Nodup := by
        simpa [ofTexts, Function.comp_def] using h
      obtain ⟨tail, htail⟩ := writeMembers_head m ms
      have hmembers : readMembers (readValue 989) ((tail ++ [('}' : CodePoint)]).length + 1)
          (writeMembers (ofTexts (m :: ms)) ++ [('}' : CodePoint)]) =
            .ok (ofTexts (m :: ms), []) := by
        apply readMembers_writeMembers hitem
        have hlength := length_le_writeMembers m ms
        rw [htail, List.length_cons] at hlength
        rw [List.length_append, List.length_singleton]
        omega
      have hne : CodePoint.quote ≠ '}' := by decide
      have hquote : isGap .quote = false := by decide
      rw [htail, List.cons_append] at hmembers ⊢
      simp only [readObject, skipGaps_cons hquote, if_neg hne, hmembers, Except.map,
        Table.ofPairs_of_nodup hnodup]
  have hskip : skipGaps (write (.obj (ofTexts members))) = write (.obj (ofTexts members)) :=
    skipGaps_cons (by decide)
  rw [read, hskip, hread]
  rfl

end Json

end BearerGate
