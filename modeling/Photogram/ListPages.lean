import Photogram.AuthDatabase
import Photogram.ContentPosts
import Photogram.HttpReader
import Photogram.PagedQuery

/-!
# Lists asked for page by page

getUsers of WorkWithPostgreSQL.cpp, getPostsList and getPostsListById of
DBclient.cpp over the tables they read. A query lists its rows in an order
that its ORDER BY fixes only in part: none for users, the timestamp for
posts. Upper case, the pattern language, the text of a timestamp and the
integers behind texts are those of the database.
-/

namespace Photogram.ListPages

open CxxString JsonValue QueryString RowTable AuthDatabase ContentPosts HttpReader PagedQuery

/-- Row of friends. -/
structure Friend where
  /-- Who has the friend. -/
  userId : ℤ
  /-- The friend. -/
  friendId : ℤ
  deriving DecidableEq

/-- The tables the lists are read from. -/
structure Store where
  /-- The users. -/
  accounts : Database
  /-- Their friends. -/
  friends : List Friend
  /-- Posts and likes. -/
  content : Tables

/-- A post joined with its owner. -/
structure AuthoredPost where
  /-- The row of posts. -/
  post : Post
  /-- The row of users. -/
  author : UserRow
  deriving DecidableEq

/-- Posts joined with the users that have their user_id. -/
def Store.authoredPosts (store : Store) : List AuthoredPost :=
  store.content.posts.rows.flatMap fun post =>
    (store.accounts.users.rows.filter fun user => (user.id : ℤ)=post.userId).map (⟨post,·⟩)

/-- A post has one owner at most, so that no key is joined twice. -/
theorem authoredPosts_unique (store : Store) :
    UniqueBy (fun row : AuthoredPost => row.post.id) store.authoredPosts := by
  refine List.pairwise_flatMap.mpr ⟨fun post _ => ?_,?_⟩
  · refine List.pairwise_map.mpr ((store.accounts.users.distinct.filter _).imp_of_mem ?_)
    intro a b ha hb hne
    have hfirst := of_decide_eq_true (List.mem_filter.mp ha).2
    have hsecond := of_decide_eq_true (List.mem_filter.mp hb).2
    omega
  · refine store.content.posts.distinct.imp fun {a b} hne x hx y hy => ?_
    obtain ⟨_,_,rfl⟩ := List.mem_map.mp hx
    obtain ⟨_,_,rfl⟩ := List.mem_map.mp hy
    exact hne

section elements

/-- Text of a column that may be null. -/
def nullableText {α : Type} (text : α → Bytes) : Option α → Bytes
  | some value => text value
  | none => []

/-- Decimal text of an integer. -/
def integerText (value : ℤ) : Bytes := ascii (toString value)

/-- Element of getUsers for a row. -/
def userElement (friends : List Friend) (id : ℤ) (user : UserRow) : Json := .object
  [(ascii "nickname",.string user.nickname),
    (ascii "photo_id",.string (nullableText numeral user.photoId)),
    (ascii "friend_id",.string (numeral user.id)),
    (ascii "is_friend",.string (boolText
      (friends.any fun friend => friend.userId=id ∧ friend.friendId=user.id)))]

/-- Element of both lists of posts for a row. -/
def postElement (timestampText : ℕ → Bytes) (tables : Tables) (id : ℤ) (row : AuthoredPost) :
    Json := .object
  [(ascii "post_id",.string (numeral row.post.id)),
    (ascii "nickname",.string row.author.nickname),
    (ascii "date_posted",.string (timestampText row.post.datePosted)),
    (ascii "description",.string row.post.postDescription),
    (ascii "like_count",.string (nullableText integerText row.post.likeCount)),
    (ascii "photo_id",.string (numeral row.post.photoId)),
    (ascii "profile_picture_id",.string (nullableText numeral row.author.photoId)),
    (ascii "is_liked",.string (boolText
      (tables.likes.rows.any fun like => like.postId=row.post.id ∧ like.userId=id)))]

/-- Numerals of different numbers differ. -/
theorem numeral_injective : Function.Injective numeral := by
  intro a b heq
  have hread := readNumeral_numeral a
  rw [heq,readNumeral_numeral] at hread
  exact (Option.some.inj hread).symm

/-- Elements that show a column without repetitions are distinct. -/
theorem nodup_elements {ρ : Type} {column : ρ → ℕ} {rows : List ρ} (h : UniqueBy column rows)
    {name : Bytes} {element : ρ → Json}
    (hshows : ∀ row,(element row).at name=.ok (.string (numeral (column row)))) :
    (rows.map element).Nodup := by
  refine List.pairwise_map.mpr (h.imp fun {a b} hne heq => hne ?_)
  have hshown := hshows a
  rw [heq,hshows] at hshown
  exact numeral_injective (Json.string.inj (Except.ok.inj hshown)).symm

/-- An element of getUsers shows the key of its row. -/
theorem userElement_id (friends : List Friend) (id : ℤ) (user : UserRow) :
    (userElement friends id user).at (ascii "friend_id")=.ok (.string (numeral user.id)) := by
  rfl

/-- An element of a list of posts shows the key of its post. -/
theorem postElement_id (timestampText : ℕ → Bytes) (tables : Tables) (id : ℤ)
    (row : AuthoredPost) :
    (postElement timestampText tables id row).at (ascii "post_id")=
      .ok (.string (numeral row.post.id)) := by
  rfl

/-- Append an element to an array; null becomes an array first. -/
def pushBack : Json → Json → Except CxxException Json
  | .array elements,element => .ok (.array (elements++[element]))
  | .null,element => .ok (.array [element])
  | _,_ => .error .jsonType

/-- Elements of an answer; null has none. -/
def elementsOf : Json → List Json
  | .array elements => elements
  | _ => []

/-- Elements are appended one behind the other. -/
theorem foldlM_pushBack (before elements : List Json) :
    elements.foldlM pushBack (.array before)=.ok (.array (before++elements)) := by
  induction elements generalizing before with
  | nil => rw [List.append_nil]; rfl
  | cons element rest ih =>
    rw [List.foldlM_cons]
    change rest.foldlM pushBack (.array (before++[element]))=_
    rw [ih,List.append_assoc,List.singleton_append]

end elements

section calls

variable {ρ : Type} (readBigint readInteger : Bytes → Option ℤ) (circumstances : Circumstances)

/-- The rows between LIMIT and OFFSET of a listing. -/
def window (listing : List ρ) (limitText offsetText : Bytes) : Except CxxException (List ρ) := do
  let limit ← integer readBigint limitText
  let offset ← integer readBigint offsetText
  if limit<0 then throw (.runtimeError "LIMIT must not be negative")
  else if offset<0 then throw (.runtimeError "OFFSET must not be negative")
  else return page listing limit.toNat offset.toNat

/-- The body all lists have: execute the query, return when it has no rows, else
commit and append an element for each row. -/
def appendRows (element : ℤ → ρ → Json) (query : ℤ → Except CxxException (List ρ)) (id : Bytes)
    (json : Json) : Except CxxException Json := do
  statement circumstances 0
  statement circumstances 1
  let user ← integer readInteger id
  let rows ← query user
  if rows.isEmpty then return json
  else
    raise? (circumstances.commit.map Prod.fst)
    (rows.map (element user)).foldlM pushBack json

/-- A readable text is an integer. -/
theorem integer_of_read {text : Bytes} {value : ℤ} (h : readInteger text=some value) :
    integer readInteger text=.ok value := by
  unfold integer
  rw [h]

/-- The rows of a window with readable bounds. -/
theorem window_ok {limitText offsetText : Bytes} {limit offset : ℕ}
    (hlimit : readBigint limitText=some (limit : ℤ))
    (hoffset : readBigint offsetText=some (offset : ℤ)) (listing : List ρ) :
    window readBigint listing limitText offsetText=.ok (page listing limit offset) := by
  unfold window
  rw [integer_of_read readBigint hlimit,integer_of_read readBigint hoffset]
  dsimp only [bind,Except.bind]
  rw [if_neg (by omega),if_neg (by omega),Int.toNat_natCast,Int.toNat_natCast]
  rfl

/-- A database that works answers an element for each row. -/
theorem appendRows_ok (h : circumstances.Healthy) {element : ℤ → ρ → Json}
    {query : ℤ → Except CxxException (List ρ)} {id : Bytes} {user : ℤ} {rows : List ρ}
    (hid : readInteger id=some user) (hquery : query user=.ok rows) :
    ∃ answer,appendRows readInteger circumstances element query id .null=.ok answer ∧
      elementsOf answer=rows.map (element user) := by
  have hstatement : ∀ number,statement circumstances number=.ok () := by
    intro number
    unfold statement
    rw [h.fault]
    rfl
  unfold appendRows
  rw [hstatement,hstatement,integer_of_read readInteger hid,h.commit]
  change ∃ answer,(query user>>=_)=_ ∧ _
  rw [hquery]
  cases rows with
  | nil => exact ⟨.null,rfl,rfl⟩
  | cons row rest => exact ⟨_,foldlM_pushBack [element user row] (rest.map (element user)),rfl⟩

/-- An answered call is answered when its errors are replaced. -/
theorem mapError_ok {call : Except CxxException Json} {elements : List Json}
    (h : ∃ answer,call=.ok answer ∧ elementsOf answer=elements) (e : CxxException) :
    ∃ answer,call.mapError (fun _ => e)=.ok answer ∧ elementsOf answer=elements := by
  obtain ⟨answer,rfl,helements⟩ := h
  exact ⟨answer,rfl,helements⟩

end calls

section lists

variable (upper : Bytes → Bytes) (like : Bytes → Bytes → Bool) (timestampText : ℕ → Bytes)
  (readBigint readInteger : Bytes → Option ℤ) (circumstances : Circumstances)

/-- Rows of getUsersList. -/
def usersList (store : Store) (substr : Bytes) (id : ℤ) : List UserRow :=
  store.accounts.users.rows.filter fun user =>
    like (upper user.nickname) (upper (37::substr++[37])) ∧ (user.id : ℤ)≠id

/-- Rows of getPostsList. -/
def postsList (store : Store) (id : ℤ) : List AuthoredPost :=
  store.authoredPosts.filter fun row =>
    (store.friends.any fun friend => friend.userId=id ∧ friend.friendId=row.post.userId) ∨
      row.post.userId=id

/-- Rows of getPostsListById. -/
def postsListById (store : Store) (authorId : ℤ) : List AuthoredPost :=
  store.authoredPosts.filter fun row => row.post.userId=authorId

/-- Users are listed in any order. -/
def unordered (_ : UserRow) : Unit := ()

/-- Posts are listed by descending timestamps. -/
def latestFirst (row : AuthoredPost) : ℕᵒᵈ := OrderDual.toDual row.post.datePosted

/-- A page of the users whose nicknames contain a text. -/
def getUsers (arrangement : Arrangement unordered) (properties : PropertyMap) (id : Bytes)
    (store : Store) (json : Json) : Except CxxException Json :=
  appendRows readInteger circumstances (userElement store.friends)
    (fun user => window readBigint
      (arrangement.order (usersList upper like store (property properties (ascii "substr")) user))
      (property properties (ascii "LIMIT")) (property properties (ascii "OFFSET"))) id json

/-- A page of the posts of a user and of the friends. -/
def getPostsList (arrangement : Arrangement latestFirst) (id limitText offsetText : Bytes)
    (store : Store) (json : Json) : Except CxxException Json :=
  (appendRows readInteger circumstances (postElement timestampText store.content)
    (fun user => window readBigint (arrangement.order (postsList store user)) limitText offsetText)
    id json).mapError fun _ => serverError

/-- A page of the posts of an author. -/
def getPostsListById (arrangement : Arrangement latestFirst)
    (authorId userId limitText offsetText : Bytes) (store : Store) (json : Json) :
    Except CxxException Json :=
  (appendRows readInteger circumstances (postElement timestampText store.content)
    (fun _ => do
      let author ← integer readInteger authorId
      window readBigint (arrangement.order (postsListById store author)) limitText offsetText)
    userId json).mapError fun _ => serverError

end lists

section browsing

variable {ρ κ : Type} [LinearOrder κ]

/-- Ask for pages one behind the other, and put their elements together. -/
def browse (call : ℕ → Except CxxException Json) (count : ℕ) : Except CxxException (List Json) := do
  let answers ← (List.range count).mapM call
  return answers.flatMap elementsOf

/-- However each execution orders the rows, the pages contain each element once. -/
def Complete (key : ρ → κ) (call : Arrangement key → ℕ → Except CxxException Json)
    (elements : List Json) (count : ℕ) : Prop :=
  ∀ arrangements : ℕ → Arrangement key,∃ listed,
    browse (fun k => call (arrangements k) k) count=.ok listed ∧ listed.Perm elements

/-- The elements of answered pages. -/
theorem browse_ok {call : ℕ → Except CxxException Json} {elements : ℕ → List Json} {count : ℕ}
    (h : ∀ k<count,∃ answer,call k=.ok answer ∧ elementsOf answer=elements k) :
    browse call count=.ok ((List.range count).flatMap elements) := by
  have hanswers : ∀ ks : List ℕ,(∀ k ∈ ks,k<count) → ∃ answers,
      ks.mapM call=.ok answers ∧ answers.flatMap elementsOf=ks.flatMap elements := by
    intro ks hks
    induction ks with
    | nil => exact ⟨[],rfl,rfl⟩
    | cons k ks ih =>
      obtain ⟨answer,hcall,helements⟩ := h k (hks k List.mem_cons_self)
      obtain ⟨answers,hrest,hmore⟩ := ih fun j hj => hks j (List.mem_cons_of_mem _ hj)
      refine ⟨answer::answers,?_,?_⟩
      · rw [List.mapM_cons,hcall,hrest]
        rfl
      · rw [List.flatMap_cons,List.flatMap_cons,helements,hmore]
  obtain ⟨answers,hall,helements⟩ := hanswers (List.range count) fun k hk => List.mem_range.mp hk
  unfold browse
  rw [hall,←helements]
  rfl

/-- Pages of rows with distinct elements are complete exactly when no boundary
falls inside a group with one key. -/
theorem complete_iff {key : ρ → κ} {rows : List ρ} {element : ρ → Json} {n count : ℕ}
    {call : Arrangement key → ℕ → Except CxxException Json}
    (hdistinct : (rows.map element).Nodup) (hcount : rows.length ≤ count*n)
    (hcall : ∀ arrangement,∀ k<count,∃ answer,call arrangement k=.ok answer ∧
      elementsOf answer=(page (arrangement.order rows) n (k*n)).map element) :
    Complete key call (rows.map element) count ↔ Aligned key rows n := by
  rw [←pages_arranged_iff hdistinct.of_map hcount]
  refine forall_congr' fun arrangements => ?_
  have hbrowse : browse (fun k => call (arrangements k) k) count=
      .ok ((pages (fun k => (arrangements k).order rows) n count).map element) := by
    rw [browse_ok fun k hk => hcall (arrangements k) k hk]
    unfold pages
    rw [List.map_flatMap]
  have hsubset : pages (fun k => (arrangements k).order rows) n count ⊆ rows := fun row hmem =>
    mem_of_mem_pages (fun k => ((arrangements k).admissible rows).perm) hmem
  have himages := map_perm_iff hsubset hdistinct
  constructor
  · rintro ⟨listed,hlisted,hperm⟩
    rw [hbrowse] at hlisted
    cases hlisted
    exact himages.mp hperm
  · exact fun hperm => ⟨_,hbrowse,himages.mpr hperm⟩

end browsing

section complete

variable (upper : Bytes → Bytes) (like : Bytes → Bytes → Bool) (timestampText : ℕ → Bytes)

/-- Properties of a request for a page of users. -/
def pageProperties (substr limitText offsetText : Bytes) : PropertyMap :=
  (((∅ : PropertyMap).insert (ascii "substr") substr).insert (ascii "LIMIT") limitText).insert
    (ascii "OFFSET") offsetText

/-- The properties are found again. -/
theorem property_pageProperties (substr limitText offsetText : Bytes) :
    property (pageProperties substr limitText offsetText) (ascii "substr")=substr ∧
      property (pageProperties substr limitText offsetText) (ascii "LIMIT")=limitText ∧
      property (pageProperties substr limitText offsetText) (ascii "OFFSET")=offsetText := by
  have hother : ∀ (properties : PropertyMap) {key other : Bytes} (value : Bytes),key≠other →
      property (properties.insert key value) other=property properties other := by
    intro properties key other value hne
    simp [property,Std.ExtTreeMap.getD_insert,hne]
  unfold pageProperties
  refine ⟨?_,?_,property_insert _ _ _⟩
  · rw [hother _ _ (by decide),hother _ _ (by decide),property_insert]
  · rw [hother _ _ (by decide),property_insert]

section asked

variable (readBigint readInteger : Bytes → Option ℤ) (circumstances : Circumstances)
  (limitText : Bytes) (offsetText : ℕ → Bytes) (store : Store) (count : ℕ)

/-- The pages a user asks getUsers for contain each matching user once. -/
def UsersComplete (substr id : Bytes) (user : ℤ) : Prop :=
  Complete unordered (fun arrangement k => getUsers upper like readBigint readInteger circumstances
      arrangement (pageProperties substr limitText (offsetText k)) id store .null)
    ((usersList upper like store substr user).map (userElement store.friends user)) count

/-- The pages a user asks getPostsList for contain each matching post once. -/
def PostsComplete (id : Bytes) (user : ℤ) : Prop :=
  Complete latestFirst (fun arrangement k => getPostsList timestampText readBigint readInteger
      circumstances arrangement id limitText (offsetText k) store .null)
    ((postsList store user).map (postElement timestampText store.content user)) count

/-- The pages a user asks getPostsListById for contain each post of the author once. -/
def PostsByIdComplete (authorId id : Bytes) (author user : ℤ) : Prop :=
  Complete latestFirst (fun arrangement k => getPostsListById timestampText readBigint readInteger
      circumstances arrangement authorId id limitText (offsetText k) store .null)
    ((postsListById store author).map (postElement timestampText store.content user)) count

end asked

section one

variable {readBigint readInteger : Bytes → Option ℤ} {circumstances : Circumstances}
  {store : Store} {id authorId limitText : Bytes} {user author : ℤ} {n count : ℕ}
  {offsetText : ℕ → Bytes} (h : circumstances.Healthy) (hid : readInteger id=some user)
  (hlimit : readBigint limitText=some (n : ℤ))
  (hoffset : ∀ k<count,readBigint (offsetText k)=some ((k*n : ℕ) : ℤ))
include h hid hlimit hoffset

/-- Pages of users are complete exactly when there is one. -/
theorem usersComplete_iff (hn : 0<n) {substr : Bytes}
    (hcount : (usersList upper like store substr user).length ≤ count*n) :
    UsersComplete upper like readBigint readInteger circumstances limitText offsetText store count
        substr id user ↔
      (usersList upper like store substr user).length ≤ n := by
  have hunique : UniqueBy UserRow.id (usersList upper like store substr user) :=
    store.accounts.users.distinct.filter _
  rw [←aligned_const_iff hn]
  refine complete_iff (nodup_elements hunique (userElement_id store.friends user)) hcount
    fun arrangement k hk => appendRows_ok readInteger circumstances h hid ?_
  obtain ⟨hsubstr,hLimit,hOffset⟩ := property_pageProperties substr limitText (offsetText k)
  rw [hsubstr,hLimit,hOffset]
  exact window_ok readBigint hlimit (hoffset k hk) _

/-- Pages of posts of the friends are complete exactly when they are aligned. -/
theorem postsComplete_iff (hcount : (postsList store user).length ≤ count*n) :
    PostsComplete timestampText readBigint readInteger circumstances limitText offsetText store
        count id user ↔
      Aligned latestFirst (postsList store user) n := by
  have hunique : UniqueBy (fun row : AuthoredPost => row.post.id) (postsList store user) :=
    (authoredPosts_unique store).filter _
  refine complete_iff (nodup_elements hunique (postElement_id timestampText store.content user))
    hcount fun arrangement k hk => ?_
  refine mapError_ok (appendRows_ok readInteger circumstances h hid ?_) serverError
  exact window_ok readBigint hlimit (hoffset k hk) _

/-- Pages of posts of an author are complete exactly when they are aligned. -/
theorem postsByIdComplete_iff (hauthor : readInteger authorId=some author)
    (hcount : (postsListById store author).length ≤ count*n) :
    PostsByIdComplete timestampText readBigint readInteger circumstances limitText offsetText store
        count authorId id author user ↔
      Aligned latestFirst (postsListById store author) n := by
  have hunique : UniqueBy (fun row : AuthoredPost => row.post.id) (postsListById store author) :=
    (authoredPosts_unique store).filter _
  refine complete_iff (nodup_elements hunique (postElement_id timestampText store.content user))
    hcount fun arrangement k hk => ?_
  refine mapError_ok (appendRows_ok readInteger circumstances h hid ?_) serverError
  rw [integer_of_read readInteger hauthor]
  exact window_ok readBigint hlimit (hoffset k hk) _

/-- The pages of each list are complete, whatever the executions do, exactly when
there is one page of users, and no boundary between pages of posts falls inside
a group of posts with one timestamp. -/
theorem lists_complete_iff (hauthor : readInteger authorId=some author) (hn : 0<n)
    (substr : Bytes) :
    ((usersList upper like store substr user).length ≤ count*n →
        (UsersComplete upper like readBigint readInteger circumstances limitText offsetText store
            count substr id user ↔
          (usersList upper like store substr user).length ≤ n)) ∧
      ((postsList store user).length ≤ count*n →
        (PostsComplete timestampText readBigint readInteger circumstances limitText offsetText
            store count id user ↔
          Aligned latestFirst (postsList store user) n)) ∧
      ((postsListById store author).length ≤ count*n →
        (PostsByIdComplete timestampText readBigint readInteger circumstances limitText offsetText
            store count authorId id author user ↔
          Aligned latestFirst (postsListById store author) n)) :=
  ⟨usersComplete_iff upper like h hid hlimit hoffset hn,
    postsComplete_iff timestampText h hid hlimit hoffset,
    postsByIdComplete_iff timestampText h hid hlimit hoffset hauthor⟩

end one

end complete

section sample

/-- A user with a nickname. -/
def sampleUser (id : ℕ) (nickname : Bytes) : UserRow :=
  ⟨id,nickname,[],[],nickname,ascii "true",ascii "2000-01-01",[],none⟩

/-- Two friends of a third user, with posts of one moment. -/
def sampleStore : Store where
  accounts := ⟨⟨[sampleUser 1 (ascii "anna"),sampleUser 2 (ascii "hanna")],3,by decide,by decide⟩,
    Table.empty _,by unfold UniqueBy; decide,by unfold UniqueBy; decide⟩
  friends := [⟨3,1⟩,⟨3,2⟩]
  content := ⟨⟨[⟨1,1,5,ascii "a",none,1⟩,⟨2,2,5,ascii "b",none,2⟩,⟨3,2,5,ascii "c",none,3⟩],4,
    by decide,by decide⟩,Table.empty _,Table.empty _⟩

/-- Integers behind numerals. -/
def readSample (text : Bytes) : Option ℤ := (readNumeral text).map Int.ofNat

/-- Numerals are read as their numbers. -/
theorem readSample_numeral (m : ℕ) : readSample (numeral m)=some (m : ℤ) := by
  unfold readSample
  rw [readNumeral_numeral]
  rfl

/-- Patterns without wildcards between two percent signs. -/
def likeSample (text pattern : Bytes) : Bool :=
  text.tails.any fun tail => pattern.tail.dropLast.isPrefixOf tail

/-- A database that works. -/
def workingSample : Circumstances := ⟨none,fun _ => none,none,0⟩

/-- The sample works. -/
theorem healthy_sample : workingSample.Healthy := ⟨fun _ => rfl,rfl⟩

/-- The same with posts of three moments. -/
def datedStore : Store :=
  {sampleStore with
    content := ⟨⟨[⟨1,1,5,ascii "a",none,1⟩,⟨2,2,6,ascii "b",none,2⟩,⟨3,2,7,ascii "c",none,3⟩],4,
      by decide,by decide⟩,Table.empty _,Table.empty _⟩}

/-- Rows of which no two are tied lie on pages of any size. -/
theorem aligned_of_untied {rows : List AuthoredPost}
    (h : ∀ row ∈ rows,tied latestFirst rows row ≤ 1) (n : ℕ) : Aligned latestFirst rows n := by
  intro row hmem k
  have htied := h row hmem
  omega

/-- Two pages of two rows show user 3 all there is. -/
theorem lists_complete_sample :
    UsersComplete id likeSample readSample readSample workingSample (numeral 2)
        (fun k => numeral (k*2)) datedStore 2 (ascii "an") (numeral 3) 3 ∧
      PostsComplete numeral readSample readSample workingSample (numeral 2)
        (fun k => numeral (k*2)) datedStore 2 (numeral 3) 3 ∧
      PostsByIdComplete numeral readSample readSample workingSample (numeral 2)
        (fun k => numeral (k*2)) datedStore 2 (numeral 2) (numeral 3) 2 3 := by
  obtain ⟨husers,hposts,hauthored⟩ := lists_complete_iff id likeSample numeral healthy_sample
    (readSample_numeral 3) (readSample_numeral 2) (fun k (_ : k<2) => readSample_numeral (k*2))
    (readSample_numeral 2) (by decide) (ascii "an")
  exact ⟨(husers (by decide +kernel)).mpr (by decide +kernel),
    (hposts (by decide +kernel)).mpr (aligned_of_untied (by decide +kernel) 2),
    (hauthored (by decide +kernel)).mpr (aligned_of_untied (by decide +kernel) 2)⟩

/-- In three pages of one row each, user 3 may miss a user and a post. -/
theorem lists_incomplete_sample :
    ¬UsersComplete id likeSample readSample readSample workingSample (numeral 1)
        (fun k => numeral (k*1)) sampleStore 3 (ascii "an") (numeral 3) 3 ∧
      ¬PostsComplete numeral readSample readSample workingSample (numeral 1)
        (fun k => numeral (k*1)) sampleStore 3 (numeral 3) 3 ∧
      ¬PostsByIdComplete numeral readSample readSample workingSample (numeral 1)
        (fun k => numeral (k*1)) sampleStore 3 (numeral 2) (numeral 3) 2 3 := by
  have hoffset : ∀ k<3,readSample (numeral (k*1))=some ((k*1 : ℕ) : ℤ) :=
    fun k _ => readSample_numeral (k*1)
  have hinside : ∀ {rows : List AuthoredPost} {row : AuthoredPost},row ∈ rows →
      before latestFirst rows row<1 → 1<before latestFirst rows row+tied latestFirst rows row →
      ¬Aligned latestFirst rows 1 := by
    intro rows row hmem hlow hhigh haligned
    have hboundary := haligned row hmem 1
    omega
  have hlater : (⟨⟨2,2,5,ascii "b",none,2⟩,sampleUser 2 (ascii "hanna")⟩ : AuthoredPost) ∈
      postsListById sampleStore 2 := by decide +kernel
  have huser : readSample (numeral 3)=some 3 := readSample_numeral 3
  have hauthor : readSample (numeral 2)=some 2 := readSample_numeral 2
  have hlimit : readSample (numeral 1)=some ((1 : ℕ) : ℤ) := readSample_numeral 1
  refine ⟨?_,?_,?_⟩
  · refine (usersComplete_iff id likeSample healthy_sample huser hlimit hoffset (by decide)
      (by decide +kernel)).not.mpr ?_
    decide +kernel
  · refine (postsComplete_iff numeral healthy_sample huser hlimit hoffset
      (by decide +kernel)).not.mpr ?_
    exact hinside (List.mem_filter.mpr ⟨(List.mem_filter.mp hlater).1,by decide +kernel⟩)
      (by decide +kernel) (by decide +kernel)
  · refine (postsByIdComplete_iff numeral healthy_sample huser hlimit hoffset hauthor
      (by decide +kernel)).not.mpr ?_
    exact hinside hlater (by decide +kernel) (by decide +kernel)

end sample

end Photogram.ListPages
