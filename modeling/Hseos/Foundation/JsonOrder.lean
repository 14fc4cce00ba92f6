import Hseos.Foundation.JsonParse

/-! # Values up to the order of their members

The sorted text of a value determines it up to the order in which its members
were written, and so it determines every record that is read from its members.
-/

namespace Hseos

/-- Number tokens kept as they are written. -/
def rawNumber (token : String) : Option JsNumber :=
  if h : isNumberText token = true then some (.finite ⟨token, h⟩) else none

namespace Json

mutual

/-- Every number is finite and no object repeats a name, as in any value read
from a JSON text without overflow. -/
def wellFormed : Json → Bool
  | .num (.infinite _) => false
  | .arr items => wellFormedItems items
  | .obj members => (members.map Prod.fst).Nodup && wellFormedMembers members
  | _ => true

def wellFormedItems : List Json → Bool
  | [] => true
  | item :: rest => wellFormed item && wellFormedItems rest

def wellFormedMembers : List (String × Json) → Bool
  | [] => true
  | (_, value) :: rest => wellFormed value && wellFormedMembers rest

end

mutual

/-- The value with the members of every object sorted by name. -/
def sorted : Json → Json
  | .arr items => .arr (sortedItems items)
  | .obj members => .obj (sortMembers (sortedMembers members))
  | value => value

def sortedItems : List Json → List Json
  | [] => []
  | item :: rest => sorted item :: sortedItems rest

def sortedMembers : List (String × Json) → List (String × Json)
  | [] => []
  | (name, value) :: rest => (name, sorted value) :: sortedMembers rest

end

/-- Equality up to the order of object members. -/
def SameUpToOrder (a b : Json) : Prop := a.sorted = b.sorted

theorem memberTexts_eq_map (order : List (String × List Char) → List (String × List Char))
    (members : List (String × Json)) :
    memberTexts order members = members.map fun m => (m.1, m.2.textBy order) := by
  induction members with
  | nil => rfl
  | cons member rest ih => simp [memberTexts, ih]

theorem memberTexts_sortMembers (members : List (String × Json)) :
    memberTexts id (sortMembers members) = sortMembers (memberTexts id members) := by
  rw [memberTexts_eq_map, memberTexts_eq_map]
  exact List.map_insertionSort _ _ _ _ (fun _ _ _ _ => Iff.rfl)

mutual

theorem textBy_sorted : ∀ value : Json, value.textBy sortMembers = value.sorted.textBy id
  | .null | .bool _ | .num _ | .str _ => rfl
  | .arr items => by rw [textBy, sorted, textBy, itemTexts_sorted items]
  | .obj members => by
      rw [textBy, sorted, textBy, memberTexts_sortMembers, memberTexts_sorted members, id]

theorem itemTexts_sorted : ∀ items : List Json,
    itemTexts sortMembers items = itemTexts id (sortedItems items)
  | [] => rfl
  | item :: rest => by
      rw [itemTexts, sortedItems, itemTexts, textBy_sorted item, itemTexts_sorted rest]

theorem memberTexts_sorted : ∀ members : List (String × Json),
    memberTexts sortMembers members = memberTexts id (sortedMembers members)
  | [] => rfl
  | (name, value) :: rest => by
      rw [memberTexts, sortedMembers, memberTexts, textBy_sorted value, memberTexts_sorted rest]

end

theorem readableMembers_iff {number : String → Option JsNumber} {members : List (String × Json)} :
    ReadableMembers number members ↔ ∀ m ∈ members, Readable number m.2 := by
  induction members with
  | nil => simp [ReadableMembers]
  | cons member rest ih => simp [ReadableMembers, ih]

theorem sortedMembers_eq_map (members : List (String × Json)) :
    sortedMembers members = members.map fun m => (m.1, m.2.sorted) := by
  induction members with
  | nil => rfl
  | cons member rest ih => simp [sortedMembers, ih]

mutual

theorem readable_sorted : ∀ value : Json, value.wellFormed = true →
    value.sorted.Readable rawNumber
  | .null, _ | .bool _, _ | .str _, _ => trivial
  | .num (.finite text), _ => ⟨text, rfl, by simp [rawNumber, text.2]⟩
  | .num (.infinite _), h => by simp [wellFormed] at h
  | .arr items, h => readableItems_sorted items h
  | .obj members, h => by
      simp only [wellFormed, Bool.and_eq_true, decide_eq_true_eq] at h
      have hperm : (sortMembers (sortedMembers members)).Perm (sortedMembers members) :=
        List.perm_insertionSort _ _
      refine ⟨(hperm.map Prod.fst).nodup_iff.mpr ?_, readableMembers_iff.mpr ?_⟩
      · rw [sortedMembers_eq_map, List.map_map]
        exact h.1
      · intro m hm
        exact readableMembers_iff.mp (readableMembers_sorted members h.2) m (hperm.mem_iff.mp hm)

theorem readableItems_sorted : ∀ items : List Json, wellFormedItems items = true →
    ReadableItems rawNumber (sortedItems items)
  | [], _ => trivial
  | item :: rest, h => by
      simp only [wellFormedItems, Bool.and_eq_true] at h
      exact ⟨readable_sorted item h.1, readableItems_sorted rest h.2⟩

theorem readableMembers_sorted : ∀ members : List (String × Json),
    wellFormedMembers members = true → ReadableMembers rawNumber (sortedMembers members)
  | [], _ => trivial
  | (_, value) :: rest, h => by
      simp only [wellFormedMembers, Bool.and_eq_true] at h
      exact ⟨readable_sorted value h.1, readableMembers_sorted rest h.2⟩

end

end Json

/-- Values with equal sorted texts are equal up to the order of their members. -/
theorem sameUpToOrder_of_canonicalJson_eq {a b : Json} (ha : a.wellFormed = true)
    (hb : b.wellFormed = true) (h : canonicalJson a = canonicalJson b) :
    a.SameUpToOrder b := by
  have htext : a.sorted.textBy id = b.sorted.textBy id := by
    rw [← Json.textBy_sorted, ← Json.textBy_sorted]
    exact h
  have hreada := parseValue_text rawNumber a.sorted (max a.sorted.readFuel b.sorted.readFuel) []
    (Json.readable_sorted a ha) (le_max_left _ _) delimited_nil
  have hreadb := parseValue_text rawNumber b.sorted (max a.sorted.readFuel b.sorted.readFuel) []
    (Json.readable_sorted b hb) (le_max_right _ _) delimited_nil
  rw [htext, hreadb] at hreada
  exact (Prod.mk.inj (Option.some.inj hreada)).1.symm

/-! ## Members of a sorted value -/

namespace Json

theorem sortedItems_eq_map (items : List Json) : sortedItems items = items.map sorted := by
  induction items with
  | nil => rfl
  | cons item rest ih => simp [sortedItems, ih]

theorem wellFormedItems_iff {items : List Json} :
    wellFormedItems items = true ↔ ∀ item ∈ items, item.wellFormed = true := by
  induction items with
  | nil => simp [wellFormedItems]
  | cons item rest ih => simp [wellFormedItems, ih]

theorem find?_sortMembers {β : Type} {members : List (String × β)}
    (h : (members.map Prod.fst).Nodup) (name : String) :
    (sortMembers members).find? (fun m => m.1 = name) = members.find? fun m => m.1 = name :=
  find?_key_of_perm (List.perm_insertionSort _ _) h name

/-- Sorting leaves each member in its object, with its value sorted. -/
theorem field?_sorted {value : Json} (h : value.wellFormed = true) (name : String) :
    value.sorted.field? name = (value.field? name).map sorted := by
  cases value with
  | obj members =>
      simp only [wellFormed, Bool.and_eq_true, decide_eq_true_eq] at h
      rw [sorted, field?, field?, find?_sortMembers]
      · rw [sortedMembers_eq_map, List.find?_map, Option.map_map, Option.map_map]
        rfl
      · rw [sortedMembers_eq_map, List.map_map]
        exact h.1
  | _ => rfl

theorem SameUpToOrder.field? {a b : Json} (h : a.SameUpToOrder b) (ha : a.wellFormed = true)
    (hb : b.wellFormed = true) (name : String) :
    (a.field? name).map sorted = (b.field? name).map sorted := by
  rw [← field?_sorted ha, ← field?_sorted hb, h]

theorem ofNat_injective {m n : Nat} (h : Json.ofNat m = Json.ofNat n) : m = n := by
  have hrepr : Nat.repr m = Nat.repr n := by simpa [ofNat] using h
  have hdigits : Nat.toDigits 10 m = Nat.toDigits 10 n := by
    rw [← Nat.toList_repr, ← Nat.toList_repr, hrepr]
  rw [← Nat.ofDigitChars_ten_toDigits (n := m), hdigits, Nat.ofDigitChars_ten_toDigits]

end Json

/-! ## What a text shows -/

namespace Json

mutual

/-- No object repeats a name, as in any value read from a JSON text. -/
def distinct : Json → Bool
  | .arr items => distinctItems items
  | .obj members => (members.map Prod.fst).Nodup && distinctMembers members
  | _ => true

def distinctItems : List Json → Bool
  | [] => true
  | item :: rest => distinct item && distinctItems rest

def distinctMembers : List (String × Json) → Bool
  | [] => true
  | (_, value) :: rest => distinct value && distinctMembers rest

end

mutual

theorem distinct_of_wellFormed : ∀ value : Json, value.wellFormed = true → value.distinct = true
  | .null, _ | .bool _, _ | .str _, _ | .num _, _ => rfl
  | .arr items, h => distinctItems_of_wellFormed items h
  | .obj members, h => by
      simp only [wellFormed, Bool.and_eq_true, decide_eq_true_eq] at h
      simp only [distinct, Bool.and_eq_true, decide_eq_true_eq]
      exact ⟨h.1, distinctMembers_of_wellFormed members h.2⟩

theorem distinctItems_of_wellFormed : ∀ items : List Json, wellFormedItems items = true →
    distinctItems items = true
  | [], _ => rfl
  | item :: rest, h => by
      simp only [wellFormedItems, Bool.and_eq_true] at h
      simp only [distinctItems, Bool.and_eq_true]
      exact ⟨distinct_of_wellFormed item h.1, distinctItems_of_wellFormed rest h.2⟩

theorem distinctMembers_of_wellFormed : ∀ members : List (String × Json),
    wellFormedMembers members = true → distinctMembers members = true
  | [], _ => rfl
  | (_, value) :: rest, h => by
      simp only [wellFormedMembers, Bool.and_eq_true] at h
      simp only [distinctMembers, Bool.and_eq_true]
      exact ⟨distinct_of_wellFormed value h.1, distinctMembers_of_wellFormed rest h.2⟩

end

mutual

/-- The value that the text of a value shows: an infinity prints as `null`. -/
def shown : Json → Json
  | .num (.infinite _) => .null
  | .arr items => .arr (shownItems items)
  | .obj members => .obj (shownMembers members)
  | value => value

def shownItems : List Json → List Json
  | [] => []
  | item :: rest => shown item :: shownItems rest

def shownMembers : List (String × Json) → List (String × Json)
  | [] => []
  | (name, value) :: rest => (name, shown value) :: shownMembers rest

end

theorem shownItems_eq_map (items : List Json) : shownItems items = items.map shown := by
  induction items with
  | nil => rfl
  | cons item rest ih => simp [shownItems, ih]

theorem shownMembers_eq_map (members : List (String × Json)) :
    shownMembers members = members.map fun m => (m.1, m.2.shown) := by
  induction members with
  | nil => rfl
  | cons member rest ih => simp [shownMembers, ih]

mutual

theorem textBy_shown (order : List (String × List Char) → List (String × List Char)) :
    ∀ value : Json, value.shown.textBy order = value.textBy order
  | .null | .bool _ | .str _ => rfl
  | .num (.finite _) | .num (.infinite _) => rfl
  | .arr items => by rw [shown, textBy, textBy, itemTexts_shown order items]
  | .obj members => by rw [shown, textBy, textBy, memberTexts_shown order members]

theorem itemTexts_shown (order : List (String × List Char) → List (String × List Char)) :
    ∀ items : List Json, itemTexts order (shownItems items) = itemTexts order items
  | [] => rfl
  | item :: rest => by
      rw [shownItems, itemTexts, itemTexts, textBy_shown order item, itemTexts_shown order rest]

theorem memberTexts_shown (order : List (String × List Char) → List (String × List Char)) :
    ∀ members : List (String × Json), memberTexts order (shownMembers members) =
      memberTexts order members
  | [] => rfl
  | (name, value) :: rest => by
      rw [shownMembers, memberTexts, memberTexts, textBy_shown order value,
        memberTexts_shown order rest]

end

mutual

theorem wellFormed_shown : ∀ value : Json, value.distinct = true → value.shown.wellFormed = true
  | .null, _ | .bool _, _ | .str _, _ => rfl
  | .num (.finite _), _ | .num (.infinite _), _ => rfl
  | .arr items, h => wellFormedItems_shown items h
  | .obj members, h => by
      simp only [distinct, Bool.and_eq_true, decide_eq_true_eq] at h
      simp only [shown, wellFormed, Bool.and_eq_true, decide_eq_true_eq]
      refine ⟨?_, wellFormedMembers_shown members h.2⟩
      rw [shownMembers_eq_map, List.map_map]
      exact h.1

theorem wellFormedItems_shown : ∀ items : List Json, distinctItems items = true →
    wellFormedItems (shownItems items) = true
  | [], _ => rfl
  | item :: rest, h => by
      simp only [distinctItems, Bool.and_eq_true] at h
      simp only [shownItems, wellFormedItems, Bool.and_eq_true]
      exact ⟨wellFormed_shown item h.1, wellFormedItems_shown rest h.2⟩

theorem wellFormedMembers_shown : ∀ members : List (String × Json),
    distinctMembers members = true → wellFormedMembers (shownMembers members) = true
  | [], _ => rfl
  | (_, value) :: rest, h => by
      simp only [distinctMembers, Bool.and_eq_true] at h
      simp only [shownMembers, wellFormedMembers, Bool.and_eq_true]
      exact ⟨wellFormed_shown value h.1, wellFormedMembers_shown rest h.2⟩

end

theorem field?_shown (value : Json) (name : String) :
    value.shown.field? name = (value.field? name).map shown := by
  cases value with
  | obj members =>
      rw [shown, field?, field?, shownMembers_eq_map, List.find?_map, Option.map_map, Option.map_map]
      rfl
  | num value => cases value <;> rfl
  | _ => rfl

theorem distinctItems_iff {items : List Json} :
    distinctItems items = true ↔ ∀ item ∈ items, item.distinct = true := by
  induction items with
  | nil => simp [distinctItems]
  | cons item rest ih => simp [distinctItems, ih]

theorem distinctMembers_iff {members : List (String × Json)} :
    distinctMembers members = true ↔ ∀ m ∈ members, m.2.distinct = true := by
  induction members with
  | nil => simp [distinctMembers]
  | cons member rest ih => simp [distinctMembers, ih]

end Json

/-! ## Parsed values -/

theorem map_fst_setMember {β : Type} (members : List (String × β)) (member : String × β) :
    (setMember members member).map Prod.fst =
      if member.1 ∈ members.map Prod.fst then members.map Prod.fst
      else members.map Prod.fst ++ [member.1] := by
  have hany : (members.any fun m => m.1 = member.1) = true ↔ member.1 ∈ members.map Prod.fst := by
    simp only [List.any_eq_true, List.mem_map, decide_eq_true_eq]
  unfold setMember
  by_cases hmem : member.1 ∈ members.map Prod.fst
  · rw [if_pos (hany.mpr hmem), if_pos hmem, List.map_map]
    apply List.map_congr_left
    intro m _
    by_cases hname : m.1 = member.1 <;> simp [hname]
  · rw [if_neg (hany.not.mpr hmem), if_neg hmem, List.map_append, List.map_singleton]

/-- Assigning members one by one keeps each name once and makes up no member. -/
theorem foldl_setMember_spec {β : Type} (members acc : List (String × β))
    (hacc : (acc.map Prod.fst).Nodup) :
    ((members.foldl setMember acc).map Prod.fst).Nodup ∧
      ∀ m ∈ members.foldl setMember acc, m ∈ acc ∨ m ∈ members := by
  induction members generalizing acc with
  | nil => exact ⟨hacc, fun m hm => .inl hm⟩
  | cons member rest ih =>
      have hnodup : ((setMember acc member).map Prod.fst).Nodup := by
        rw [map_fst_setMember]
        split
        next => exact hacc
        next hfresh => exact hacc.append (List.nodup_singleton _) (by simpa using hfresh)
      obtain ⟨hnames, hfrom⟩ := ih (setMember acc member) hnodup
      refine ⟨hnames, ?_⟩
      intro m hm
      rcases hfrom m hm with hset | hrest
      · unfold setMember at hset
        split at hset
        next =>
          obtain ⟨old, hold, rfl⟩ := List.mem_map.mp hset
          split
          next => exact .inr List.mem_cons_self
          next => exact .inl hold
        next =>
          rcases List.mem_append.mp hset with hold | hnew
          · exact .inl hold
          · exact .inr (List.mem_singleton.mp hnew ▸ List.mem_cons_self)
      · exact .inr (List.mem_cons_of_mem _ hrest)

theorem distinct_ownMembers {members : List (String × Json)}
    (h : ∀ m ∈ members, m.2.distinct = true) : (Json.obj (ownMembers members)).distinct = true := by
  obtain ⟨hnames, hfrom⟩ := foldl_setMember_spec members [] List.nodup_nil
  simp only [Json.distinct, Bool.and_eq_true, decide_eq_true_eq, Json.distinctMembers_iff]
  refine ⟨hnames, ?_⟩
  intro m hm
  rcases hfrom m hm with hnil | hmem
  · cases hnil
  · exact h m hmem

/-- A parsed value repeats no name. -/
theorem parse_distinct (number : String → Option JsNumber) : ∀ (fuel : Nat) (text : List Char),
    (∀ value rest, parseValue number fuel text = some (value, rest) → value.distinct = true) ∧
    (∀ items rest, parseItems number fuel text = some (items, rest) →
      Json.distinctItems items = true) ∧
    (∀ members rest, parseMembers number fuel text = some (members, rest) →
      ∀ m ∈ members, m.2.distinct = true) := by
  intro fuel
  induction fuel with
  | zero => intro text; simp [parseValue, parseItems, parseMembers]
  | succ fuel ih =>
      intro text
      refine ⟨?_, ?_, ?_⟩
      · intro value rest h
        unfold parseValue at h
        split at h
        · obtain ⟨rfl, -⟩ := Prod.mk.inj (Option.some.inj h); rfl
        · obtain ⟨rfl, -⟩ := Prod.mk.inj (Option.some.inj h); rfl
        · obtain ⟨rfl, -⟩ := Prod.mk.inj (Option.some.inj h); rfl
        · obtain ⟨p, -, heq⟩ := Option.map_eq_some_iff.mp h
          obtain ⟨rfl, -⟩ := Prod.mk.inj heq
          rfl
        · split at h
          · obtain ⟨rfl, -⟩ := Prod.mk.inj (Option.some.inj h); rfl
          · obtain ⟨p, hp, heq⟩ := Option.map_eq_some_iff.mp h
            obtain ⟨rfl, -⟩ := Prod.mk.inj heq
            exact (ih _).2.1 p.1 p.2 hp
        · split at h
          · obtain ⟨rfl, -⟩ := Prod.mk.inj (Option.some.inj h); rfl
          · obtain ⟨p, hp, heq⟩ := Option.map_eq_some_iff.mp h
            obtain ⟨rfl, -⟩ := Prod.mk.inj heq
            exact distinct_ownMembers ((ih _).2.2 p.1 p.2 hp)
        · obtain ⟨p, -, heq⟩ := Option.map_eq_some_iff.mp h
          obtain ⟨rfl, -⟩ := Prod.mk.inj heq
          rfl
      · intro items rest h
        unfold parseItems at h
        split at h
        next value rest' hvalue =>
          have hdistinct := (ih _).1 value rest' hvalue
          split at h
          · obtain ⟨p, hp, heq⟩ := Option.map_eq_some_iff.mp h
            obtain ⟨rfl, -⟩ := Prod.mk.inj heq
            simp [Json.distinctItems, hdistinct, (ih _).2.1 p.1 p.2 hp]
          · obtain ⟨rfl, -⟩ := Prod.mk.inj (Option.some.inj h)
            simp [Json.distinctItems, hdistinct]
          · cases h
        next => cases h
      · intro members rest h
        unfold parseMembers at h
        split at h
        · split at h
          next name rest₁ _ =>
            split at h
            · split at h
              next value rest₂ hvalue =>
                have hdistinct := (ih _).1 value rest₂ hvalue
                split at h
                · obtain ⟨p, hp, heq⟩ := Option.map_eq_some_iff.mp h
                  obtain ⟨rfl, -⟩ := Prod.mk.inj heq
                  intro m hm
                  rcases List.mem_cons.mp hm with rfl | hm
                  · exact hdistinct
                  · exact (ih _).2.2 p.1 p.2 hp m hm
                · obtain ⟨rfl, -⟩ := Prod.mk.inj (Option.some.inj h)
                  intro m hm
                  obtain rfl := List.mem_singleton.mp hm
                  exact hdistinct
                · cases h
              next => cases h
            · cases h
          next => cases h
        · cases h

theorem distinct_of_parseText {number : String → Option JsNumber} {text : String} {value : Json}
    (h : parseText number text = some value) : value.distinct = true := by
  unfold parseText at h
  split at h
  next found rest hparse =>
    split at h
    · obtain rfl := Option.some.inj h
      exact (parse_distinct number _ _).1 found rest hparse
    · cases h
  next => cases h

/-! ## Encodings that lose nothing -/

/-- The records that pass a check are encoded by well-formed values, and the value
determines the record even up to the order of members. -/
structure Faithful {α : Type} (valid : α → Prop) (toJson : α → Json) : Prop where
  wellFormed : ∀ {a}, valid a → (toJson a).wellFormed = true
  injective : ∀ {a b}, valid a → valid b → (toJson a).SameUpToOrder (toJson b) → a = b

namespace Faithful

variable {α : Type} {valid : α → Prop} {toJson : α → Json}

theorem eq_of_canonicalJson_eq (h : Faithful valid toJson) {a b : α} (ha : valid a) (hb : valid b)
    (htext : canonicalJson (toJson a) = canonicalJson (toJson b)) : a = b :=
  h.injective ha hb (sameUpToOrder_of_canonicalJson_eq (h.wellFormed ha) (h.wellFormed hb) htext)

theorem mono (h : Faithful valid toJson) {valid' : α → Prop} (hvalid : ∀ a, valid' a → valid a) :
    Faithful valid' toJson where
  wellFormed ha := h.wellFormed (hvalid _ ha)
  injective ha hb := h.injective (hvalid _ ha) (hvalid _ hb)

theorem str : Faithful (fun _ => True) Json.str where
  wellFormed _ := rfl
  injective _ _ h := by simpa [Json.SameUpToOrder, Json.sorted] using h

theorem refined {check : String → Bool} :
    Faithful (fun _ => True) fun text : Refined check => Json.str text.val where
  wellFormed _ := rfl
  injective _ _ h := Subtype.ext (str.injective trivial trivial h)

theorem ofNat : Faithful (fun _ => True) Json.ofNat where
  wellFormed _ := rfl
  injective _ _ h := Json.ofNat_injective h

theorem finiteNumber : Faithful (fun value : JsNumber => (Json.num value).wellFormed = true) .num where
  wellFormed h := h
  injective _ _ h := by simpa [Json.SameUpToOrder, Json.sorted] using h

/-- A sorted value stands for itself. -/
theorem self : Faithful (fun value : Json => value.wellFormed = true ∧ value.sorted = value) id where
  wellFormed h := h.1
  injective ha hb h := by
    rw [id, id, Json.SameUpToOrder, ha.2, hb.2] at h
    exact h

theorem arr (h : Faithful valid toJson) :
    Faithful (fun list : List α => ∀ a ∈ list, valid a) fun list => .arr (list.map toJson) where
  wellFormed hlist := by
    rw [Json.wellFormed, Json.wellFormedItems_iff]
    intro item hitem
    obtain ⟨a, ha, rfl⟩ := List.mem_map.mp hitem
    exact h.wellFormed (hlist a ha)
  injective := by
    intro first second hfirst hsecond hsame
    rw [Json.SameUpToOrder, Json.sorted, Json.sorted, Json.arr.injEq, Json.sortedItems_eq_map,
      Json.sortedItems_eq_map, List.map_map, List.map_map] at hsame
    induction first generalizing second with
    | nil => simpa [eq_comm] using hsame
    | cons a rest ih =>
        cases second with
        | nil => simp at hsame
        | cons b others =>
            rw [List.map_cons, List.map_cons, List.cons.injEq] at hsame
            rw [h.injective (hfirst a List.mem_cons_self) (hsecond b List.mem_cons_self) hsame.1,
              ih (fun x hx => hfirst x (List.mem_cons_of_mem _ hx))
                (fun x hx => hsecond x (List.mem_cons_of_mem _ hx)) hsame.2]

variable {first second : Json} {name : String}

/-- The member that two values with the same sorted members agree on. -/
theorem member (h : Faithful valid toJson) {a b : α} (ha : valid a) (hb : valid b)
    (hfirst : first.field? name = some (toJson a)) (hsecond : second.field? name = some (toJson b))
    (hsame : (first.field? name).map Json.sorted = (second.field? name).map Json.sorted) : a = b := by
  rw [hfirst, hsecond, Option.map_some, Option.map_some, Option.some.injEq] at hsame
  exact h.injective ha hb hsame

/-- The same for a member that may be absent. -/
theorem member? (h : Faithful valid toJson) {a b : Option α} (ha : ∀ x ∈ a, valid x)
    (hb : ∀ x ∈ b, valid x) (hfirst : first.field? name = a.map toJson)
    (hsecond : second.field? name = b.map toJson)
    (hsame : (first.field? name).map Json.sorted = (second.field? name).map Json.sorted) : a = b := by
  rw [hfirst, hsecond] at hsame
  cases a with
  | none => cases b with
    | none => rfl
    | some y => cases hsame
  | some x => cases b with
    | none => cases hsame
    | some y => rw [h.injective (ha x rfl) (hb y rfl) (Option.some.inj hsame)]

end Faithful

end Hseos
