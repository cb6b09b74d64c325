import Mathlib.Data.List.Basic
import Mathlib.Data.Set.Function

/-!
# Renaming

A one-to-one renaming takes one list to another just when the two hold equal items in the same
places. A document is told by its outline, which is what is left when its tokens are blotted out,
and by its tokens in their order. So one document is another up to the names of its tokens just
when the outlines are equal and the tokens are equal in the same places.
-/

namespace Splitforge.Library

variable {First Second Third Token : Type}

/-! ## Equal in the same places -/

/-- Two lists hold equal items in the same places. -/
structure SamePlaces (first : List First) (second : List Second) : Prop where
  length : first.length = second.length
  places : ∀ i j : Nat, first[i]? = first[j]? ↔ second[i]? = second[j]?

theorem SamePlaces.symm {first : List First} {second : List Second}
    (h : SamePlaces first second) : SamePlaces second first :=
  ⟨h.length.symm, fun i j => (h.places i j).symm⟩

theorem SamePlaces.trans {first : List First} {second : List Second} {third : List Third}
    (h : SamePlaces first second) (h' : SamePlaces second third) : SamePlaces first third :=
  ⟨h.length.trans h'.length, fun i j => (h.places i j).trans (h'.places i j)⟩

/-- Lists without a repetition have no two equal items. -/
theorem same_places_of_nodup {first : List First} {second : List Second} (hfirst : first.Nodup)
    (hsecond : second.Nodup) (hlength : first.length = second.length) :
    SamePlaces first second := by
  refine ⟨hlength, ?_⟩
  intro i j
  by_cases hi : i < first.length
  · rw [List.getElem?_inj hi hfirst, List.getElem?_inj (hlength ▸ hi) hsecond]
  · have hi' : first[i]? = none := List.getElem?_eq_none (Nat.not_lt.mp hi)
    have hi'' : second[i]? = none := List.getElem?_eq_none (hlength ▸ Nat.not_lt.mp hi)
    rw [hi', hi'', eq_comm, List.getElem?_eq_none_iff, eq_comm, List.getElem?_eq_none_iff, hlength]

/-- What stands at a place in front is not what stands at a place behind, where the two parts have
nothing in common. -/
theorem get_ne_of_disjoint {front behind : List First} (h : ∀ item ∈ front, item ∉ behind)
    {i j : Nat} (hi : i < front.length) : front[i]? ≠ behind[j]? := by
  intro heq
  rw [List.getElem?_eq_getElem hi] at heq
  exact h _ (List.getElem_mem hi) (List.mem_of_getElem? heq.symm)

/-- Lists put behind lists they have nothing in common with. -/
theorem SamePlaces.append {front behind : List First} {front' behind' : List Second}
    (hfront : SamePlaces front front') (hbehind : SamePlaces behind behind')
    (hdisjoint : ∀ item ∈ front, item ∉ behind) (hdisjoint' : ∀ item ∈ front', item ∉ behind') :
    SamePlaces (front ++ behind) (front' ++ behind') := by
  refine ⟨?_, ?_⟩
  · rw [List.length_append, List.length_append, hfront.length, hbehind.length]
  · intro i j
    have hi' : i < front'.length ↔ i < front.length := by rw [hfront.length]
    have hj' : j < front'.length ↔ j < front.length := by rw [hfront.length]
    simp only [List.getElem?_append, hi', hj']
    split_ifs with hi hj hj
    · exact hfront.places i j
    · exact iff_of_false (get_ne_of_disjoint hdisjoint hi)
        (get_ne_of_disjoint hdisjoint' (hi'.mpr hi))
    · exact iff_of_false (get_ne_of_disjoint hdisjoint hj).symm
        (get_ne_of_disjoint hdisjoint' (hj'.mpr hj)).symm
    · rw [← hfront.length]
      exact hbehind.places _ _

/-- A one-to-one renaming leaves equal items in their places. -/
theorem same_places_map {items : List First} {rename : First → Second}
    (hrename : Set.InjOn rename {item | item ∈ items}) :
    SamePlaces items (items.map rename) := by
  refine ⟨(List.length_map _).symm, ?_⟩
  intro i j
  rw [List.getElem?_map, List.getElem?_map]
  constructor
  · intro h
    rw [h]
  · intro h
    cases hi : items[i]? with
    | none =>
        rw [hi] at h
        exact (Option.map_eq_none_iff.mp h.symm).symm
    | some item =>
        rw [hi] at h
        obtain ⟨other, hj, hsame⟩ := Option.map_eq_some_iff.mp h.symm
        rw [hj, hrename (List.mem_of_getElem? hi) (List.mem_of_getElem? hj) hsame.symm]

/-- The image of an item is what stands in the other list where the item stands. -/
noncomputable def imageOf [Nonempty Second] (first : List First) (second : List Second)
    (item : First) : Second :=
  Classical.epsilon fun image => ∃ i : Nat, first[i]? = some item ∧ second[i]? = some image

theorem SamePlaces.image_of_eq [Nonempty Second] {first : List First} {second : List Second}
    (h : SamePlaces first second) {i : Nat} {item : First} {image : Second}
    (hitem : first[i]? = some item) (himage : second[i]? = some image) :
    imageOf first second item = image := by
  have hexists : ∃ image, ∃ i : Nat, first[i]? = some item ∧ second[i]? = some image :=
    ⟨image, i, hitem, himage⟩
  obtain ⟨j, hj, hchosen⟩ := Classical.epsilon_spec hexists
  have hsame := (h.places i j).mp (hitem.trans hj.symm)
  rw [himage, hchosen] at hsame
  exact (Option.some.inj hsame).symm

/-- An item of the one list has one beside it in the other. -/
theorem SamePlaces.beside {first : List First} {second : List Second}
    (h : SamePlaces first second) {i : Nat} {item : First} (hitem : first[i]? = some item) :
    ∃ image, second[i]? = some image := by
  obtain ⟨hlength, _⟩ := List.getElem?_eq_some_iff.mp hitem
  rw [h.length] at hlength
  exact ⟨_, List.getElem?_eq_getElem hlength⟩

/-- Lists that are equal in the same places are one another's image. -/
theorem SamePlaces.exists_renaming [Nonempty Second] {first : List First} {second : List Second}
    (h : SamePlaces first second) :
    ∃ rename : First → Second, Set.InjOn rename {item | item ∈ first} ∧
      first.map rename = second := by
  refine ⟨imageOf first second, ?_, ?_⟩
  · intro item hitem other hother hsame
    obtain ⟨i, hi⟩ := List.getElem?_of_mem hitem
    obtain ⟨j, hj⟩ := List.getElem?_of_mem hother
    obtain ⟨image, hi'⟩ := h.beside hi
    obtain ⟨image', hj'⟩ := h.beside hj
    rw [h.image_of_eq hi hi', h.image_of_eq hj hj'] at hsame
    subst hsame
    have hplaces := (h.places i j).mpr (hi'.trans hj'.symm)
    rw [hi, hj] at hplaces
    exact Option.some.inj hplaces
  · refine List.ext_getElem? ?_
    intro i
    rw [List.getElem?_map]
    cases hi : first[i]? with
    | none =>
        rw [List.getElem?_eq_none_iff, h.length] at hi
        exact (List.getElem?_eq_none_iff.mpr hi).symm
    | some item =>
        obtain ⟨image, hi'⟩ := h.beside hi
        rw [hi', Option.map_some, h.image_of_eq hi hi']

/-! ## Documents with tokens -/

/-- A document in which tokens stand. They can be renamed and read off in order, and a document is
told by what is left when they are blotted out, and by them. -/
class Marked (Doc : Type → Type) where
  rename : {Token Token' : Type} → (Token → Token') → Doc Token → Doc Token'
  tokens : {Token : Type} → Doc Token → List Token
  tokens_rename : ∀ {Token Token' : Type} (f : Token → Token') (doc : Doc Token),
    tokens (rename f doc) = (tokens doc).map f
  rename_rename : ∀ {Token Token' Token'' : Type} (f : Token → Token') (g : Token' → Token'')
    (doc : Doc Token), rename g (rename f doc) = rename (g ∘ f) doc
  eq_of_blotted : ∀ {Token : Type} {first second : Doc Token},
    rename (fun _ => ()) first = rename (fun _ => ()) second → tokens first = tokens second →
      first = second

namespace Marked

variable {Doc : Type → Type} [Marked Doc]

/-- What is left of a document when its tokens are blotted out. -/
def outline (doc : Doc Token) : Doc Unit := rename (fun _ => ()) doc

@[simp]
theorem outline_rename (f : First → Second) (doc : Doc First) :
    outline (rename f doc) = outline doc := by
  rw [outline, rename_rename]
  rfl

/-- Documents of one outline have as many tokens. -/
theorem length_tokens {first : Doc First} {second : Doc Second}
    (h : outline first = outline second) : (tokens first).length = (tokens second).length := by
  have htokens := congrArg (fun doc => (tokens doc).length) h
  simpa only [outline, tokens_rename, List.length_map] using htokens

/-- One document is the other, up to a one-to-one renaming of the tokens in it. -/
def UpToRenaming (first : Doc First) (second : Doc Second) : Prop :=
  ∃ f : First → Second, Set.InjOn f {token | token ∈ tokens first} ∧ rename f first = second

/-- Documents are one up to a renaming just when their outlines are equal, and their tokens are
equal in the same places. -/
theorem up_to_renaming_iff [Nonempty Second] {first : Doc First} {second : Doc Second} :
    UpToRenaming first second ↔
      outline first = outline second ∧ SamePlaces (tokens first) (tokens second) := by
  constructor
  · intro ⟨f, hinjective, hrename⟩
    subst hrename
    rw [outline_rename, tokens_rename]
    exact ⟨rfl, same_places_map hinjective⟩
  · intro ⟨houtline, hplaces⟩
    obtain ⟨f, hinjective, hmap⟩ := hplaces.exists_renaming
    refine ⟨f, hinjective, eq_of_blotted ?_ ?_⟩
    · show outline (rename f first) = outline second
      rw [outline_rename, houtline]
    · rw [tokens_rename, hmap]

/-- Whether documents are one up to a renaming does not hang on how their tokens are called. -/
theorem up_to_renaming_rename_iff [Nonempty Second] [Nonempty Token] {first : Doc First}
    {second : Doc Third} {f : First → Token} {g : Third → Second}
    (hf : Set.InjOn f {token | token ∈ tokens first})
    (hg : Set.InjOn g {token | token ∈ tokens second}) :
    UpToRenaming (rename f first) (rename g second) ↔
      outline first = outline second ∧ SamePlaces (tokens first) (tokens second) := by
  have hfirst := same_places_map hf
  have hsecond := same_places_map hg
  rw [up_to_renaming_iff, outline_rename, outline_rename, tokens_rename, tokens_rename]
  constructor
  · intro ⟨houtline, hplaces⟩
    exact ⟨houtline, hfirst.trans (hplaces.trans hsecond.symm)⟩
  · intro ⟨houtline, hplaces⟩
    exact ⟨houtline, hfirst.symm.trans (hplaces.trans hsecond)⟩

/-! ### Lists of documents -/

/-- The tokens of a list of documents, one document behind the other. -/
def allTokens (docs : List (Doc Token)) : List Token := docs.flatMap tokens

/-- The renaming in each of a list of documents. -/
def renameAll (f : First → Second) (docs : List (Doc First)) : List (Doc Second) :=
  docs.map (rename f)

theorem all_tokens_rename_all (f : First → Second) (docs : List (Doc First)) :
    allTokens (renameAll f docs) = (allTokens docs).map f := by
  rw [allTokens, allTokens, renameAll, List.flatMap_map, List.map_flatMap]
  exact congrArg (docs.flatMap ·) (funext fun doc => tokens_rename f doc)

theorem rename_all_rename_all (f : First → Second) (g : Second → Third)
    (docs : List (Doc First)) : renameAll g (renameAll f docs) = renameAll (g ∘ f) docs := by
  rw [renameAll, renameAll, List.map_map]
  exact congrArg (docs.map ·) (funext fun doc => rename_rename f g doc)

/-- The tokens of documents that have one each. -/
theorem all_tokens_map {Row : Type} {view : Row → Doc Token} {token : Row → Token}
    (h : ∀ row, tokens (view row) = [token row]) (rows : List Row) :
    allTokens (rows.map view) = rows.map token := by
  rw [allTokens, List.flatMap_map, List.map_eq_flatMap]
  exact congrArg (rows.flatMap ·) (funext h)

/-- Lists of documents of one outline have as many tokens. -/
theorem length_all_tokens {firsts : List (Doc First)} {seconds : List (Doc Second)}
    (h : renameAll (fun _ => ()) firsts = renameAll (fun _ => ()) seconds) :
    (allTokens firsts).length = (allTokens seconds).length := by
  have htokens := congrArg (fun docs => (allTokens docs).length) h
  simpa only [all_tokens_rename_all, List.length_map] using htokens

/-- A list of documents is told by the outlines, and by the tokens behind one another. -/
theorem eq_of_all_blotted {firsts seconds : List (Doc Token)}
    (h : renameAll (fun _ => ()) firsts = renameAll (fun _ => ()) seconds)
    (htokens : allTokens firsts = allTokens seconds) : firsts = seconds := by
  induction firsts generalizing seconds with
  | nil =>
      cases seconds with
      | nil => rfl
      | cons second seconds => cases h
  | cons first firsts ih =>
      cases seconds with
      | nil => cases h
      | cons second seconds =>
          obtain ⟨houtline, houtlines⟩ := List.cons.inj h
          rw [allTokens, allTokens, List.flatMap_cons, List.flatMap_cons] at htokens
          -- the outline says where the tokens of the first document end
          obtain ⟨hfirst, hrest⟩ := List.append_inj htokens (length_tokens houtline)
          rw [eq_of_blotted houtline hfirst, ih houtlines hrest]

end Marked

end Splitforge.Library
