import Photogram.AuthRequest
import Photogram.LikePattern
import Photogram.ListPages

/-!
# Search for users

The pattern of getUsersList. The text of the query goes between two percent
signs as it is, and the upper case of the whole is a pattern: percent signs,
underscores and backslashes of the text keep their meaning in it. Texts are free
of NUL, where a parameter of a statement would end.
-/

namespace Photogram.UserSearch

open CxxString QueryString RowTable AuthDatabase ContentPosts LikePattern ListPages

/-- Texts as the database compares them. -/
structure DatabaseText (α : Type) where
  /-- Characters of a text. -/
  chars : Bytes → List α
  /-- Upper case. -/
  upper : Bytes → Bytes
  /-- The special characters of patterns: percent sign, underscore and backslash. -/
  wildcards : Wildcards α
  /-- Percent signs around a text stand around its upper case. -/
  upper_around : ∀ text,chars (upper (37::text++[37]))=
    wildcards.any::chars (upper text)++[wildcards.any]
  /-- Characters of an upper case, and percent signs, are in upper case. -/
  upper_onto : ∀ text shown,(∀ c ∈ shown,c ∈ chars (upper text) ∨ c=wildcards.any) →
    ∃ nickname,chars (upper nickname)=shown

variable {α : Type} [DecidableEq α]

/-- The operator LIKE of the database. -/
def DatabaseText.like (texts : DatabaseText α) (text pattern : Bytes) : Bool :=
  likeMatch texts.wildcards (texts.chars pattern) (texts.chars text)

/-- A text contains another one, upper case and lower case being the same. -/
def DatabaseText.Contains (texts : DatabaseText α) (text part : Bytes) : Prop :=
  texts.chars (texts.upper part)<:+:texts.chars (texts.upper text)

instance (texts : DatabaseText α) (text part : Bytes) : Decidable (texts.Contains text part) :=
  inferInstanceAs (Decidable (_<:+:_))

/-- The users other than the caller whose nickname contains a text. -/
def usersContaining (texts : DatabaseText α) (store : Store) (part : Bytes) (id : ℤ) :
    List UserRow :=
  store.accounts.users.rows.filter fun user => texts.Contains user.nickname part ∧ (user.id : ℤ)≠id

/-- A store with one user. -/
def storeOf (nickname : Bytes) : Store where
  accounts :=
    ⟨(Table.empty _).insert (sampleUser 1 nickname) rfl,Table.empty _,List.pairwise_singleton _ _,
      List.pairwise_singleton _ _⟩
  friends := []
  content := ⟨Table.empty _,Table.empty _,Table.empty _⟩

/-- The search of the statement, on one nickname. -/
theorem like_upper (texts : DatabaseText α) (nickname part : Bytes) :
    texts.like (texts.upper nickname) (texts.upper (37::part++[37]))=
      likeMatch texts.wildcards
        (texts.wildcards.any::texts.chars (texts.upper part)++[texts.wildcards.any])
        (texts.chars (texts.upper nickname)) := by
  unfold DatabaseText.like
  rw [texts.upper_around]

/-- The search for a text is a plain one, in every table and for every caller,
exactly when its upper case has no special character of patterns. -/
theorem usersList_eq_iff (texts : DatabaseText α) (part : Bytes) :
    (∀ store id,usersList texts.upper texts.like store part id=usersContaining texts store part id) ↔
      Plain texts.wildcards (texts.chars (texts.upper part)) := by
  constructor
  · intro hall
    by_contra hspecial
    obtain ⟨shown,hmatch,hpart,hchars⟩ :=
      exists_match_not_infix texts.wildcards.any_ne_one hspecial
    obtain ⟨nickname,hnickname⟩ := texts.upper_onto part shown fun c hmem => by
      have hc := hchars c hmem
      tauto
    have hlisted : sampleUser 1 nickname ∈
        usersList texts.upper texts.like (storeOf nickname) part 0 := by
      refine List.mem_filter.mpr ⟨List.mem_singleton_self _,decide_eq_true ⟨?_,one_ne_zero⟩⟩
      rw [like_upper]
      exact hnickname ▸ hmatch
    rw [hall] at hlisted
    have hcontains := (of_decide_eq_true (List.mem_filter.mp hlisted).2).1
    exact hpart (hnickname ▸ hcontains)
  · intro hplain store id
    refine List.filter_congr fun user _ => ?_
    rw [decide_eq_decide,like_upper,likeMatch_contains hplain]
    rfl

section ascii

/-- Upper case of ASCII letters. -/
def upperByte (c : UInt8) : UInt8 := if 97 ≤ c ∧ c ≤ 122 then c-32 else c

/-- Upper case has no lower case. -/
theorem upperByte_upperByte (c : UInt8) : upperByte (upperByte c)=upperByte c := by
  unfold upperByte
  grind

/-- A database of ASCII texts. -/
def asciiTexts : DatabaseText UInt8 where
  chars := id
  upper := List.map upperByte
  wildcards := ⟨37,95,92,by decide,by decide,by decide⟩
  upper_around text := by
    have hpercent : upperByte 37=37 := by decide
    simp [hpercent]
  upper_onto text shown h := by
    refine ⟨shown,?_⟩
    conv_rhs => rw [←List.map_id shown]
    refine List.map_congr_left fun c hmem => ?_
    rcases h c hmem with hc|rfl
    · obtain ⟨d,_,rfl⟩ := List.mem_map.mp hc
      exact upperByte_upperByte d
    · decide

/-- A request for the users with an underscore in their nicknames lists every
user with a nickname. -/
theorem usersList_underscore : ∃ properties,
    AuthRequest.URLParser (ascii " /getUsersList?LIMIT=5&OFFSET=0&substr=_ HTTP/1.1") ∅ 4=
      .ok properties ∧
    usersList asciiTexts.upper asciiTexts.like (storeOf (ascii "bob"))
        (property properties (ascii "substr")) 2=[sampleUser 1 (ascii "bob")] ∧
    usersContaining asciiTexts (storeOf (ascii "bob")) (property properties (ascii "substr")) 2=[] :=
  ⟨_,rfl,by decide +kernel,by decide +kernel⟩

end ascii

end Photogram.UserSearch
