import PickUpLight.Control.JsonText
import PickUpLight.Control.SendInfoControl

/-!
# Replies, and how long they are

A reply is an object about what is asked, with a list of objects in it, each made of a row, or with
one object. Its text goes into a packet of `BUF_SIZE` bytes. `HasLength` says how long the text of a
value is, from the lengths of its parts alone, so that whether a reply fits can be told from the
cells of the rows it is made of (`fits_iff`).
-/

namespace PickUpLight.Control

open PickUpLight.Theory PickUpLight.Wire Handler SendInfoControl

/-! ### Lists and objects -/

/-- A list of objects; with none of them it is null. -/
def listOf : List Json → Json
  | [] => .null
  | values => .arr values

theorem push_back_listOf (values : List Json) (value : Json) :
    (listOf values).push_back value = listOf (values ++ [value]) := by
  cases values <;> rfl

theorem listOf_injective : Function.Injective listOf := by
  intro values values' h
  cases values <;> cases values' <;> simp_all [listOf]

theorem info_injective {infotype : InfoType} {key : String} (hkey : key ≠ "infotype") :
    Function.Injective (NetPacketGenerator.info infotype key) := by
  intro value value' h
  simpa [NetPacketGenerator.info, Json.set, Json.assign, hkey.symm] using h

/-- An assignment to a member there is not. -/
theorem assign_fresh {members : List (String × Json)} {key : String} (h : ∀ m ∈ members, m.1 ≠ key)
    (value : Json) : Json.assign key value members = members ++ [(key, value)] := by
  induction members with
  | nil => rfl
  | cons m members ih =>
    rw [Json.assign, if_neg (h m List.mem_cons_self), ih fun m' hm' => h m'
      (List.mem_cons_of_mem _ hm'), List.cons_append]

/-- The members of a comment, and the columns they are from. -/
def commentColumns : List (String × ℕ) :=
  [("id", 0), ("replyCommentId", 1), ("publisherId", 2), ("videoId", 3), ("content", 4),
    ("time", 5)]

/-- The members of a message, and the columns they are from. -/
def messageColumns : List (String × ℕ) :=
  [("sendId", 0), ("receiveId", 1), ("messageType", 2), ("content", 3), ("time", 4)]

/-- An object with cells of a row. -/
def rowObject (columns : List (String × ℕ)) (cells : List String) : Json :=
  .obj (columns.map fun c => (c.1, .str (cells.getD c.2 "")))

/-- A video of the list. -/
def vodObject (server : Server) (cells : List String) : Json :=
  .obj [("videoId", .str (cells.getD 0 "")), ("publisherId", .str (cells.getD 1 "")),
    ("url", .str (NET_VIDEO_URL server ++ cells.getD 0 "" ++ cells.getD 2 "")),
      ("profile", .str (cells.getD 3 "")),
    ("time", .str (cells.getD 5 ""))]

/-- A pushed video, and its publisher. -/
def pushJson (videoId : String) : Option String → Json
  | some publisherId => .obj [("videoId", .str videoId), ("publisherId", .str publisherId)]
  | none => .obj [("videoId", .str videoId)]

theorem set_videoId_pushJson (videoId : String) (last : Option String) (videoId' : String) :
    (pushJson videoId last).set "videoId" (.str videoId') = pushJson videoId' last := by
  cases last <;> simp [pushJson, Json.set, Json.assign]

theorem set_publisherId_pushJson (videoId : String) (last : Option String) (publisherId : String) :
    (pushJson videoId last).set "publisherId" (.str publisherId) =
      pushJson videoId (some publisherId) := by
  cases last <;> simp [pushJson, Json.set, Json.assign]

/-! ### Rows as objects -/

theorem cell_eq {row : Row} {i : ℕ} (h : i < row.cells.length) :
    cell row i = Program.ret (row.cells.getD i "") := by
  simp [cell, List.getElem?_eq_getElem h]

/-- The cells of a row go into an object one after the other. -/
theorem toJson_go {row : Row} (columns : List (String × ℕ)) {members : List (String × Json)}
    (hcells : ∀ c ∈ columns, c.2 < row.cells.length) (hkeys : (columns.map Prod.fst).Nodup)
    (hfresh : ∀ c ∈ columns, ∀ m ∈ members, m.1 ≠ c.1) :
    Program.loop (fun info column => do
      let text ← cell row column.2
      pure (info.set column.1 (.str text))) (Json.obj members) columns =
      (Program.ret (.obj (members ++ columns.map fun c => (c.1, .str (row.cells.getD c.2 "")))) :
      Handler Json) := by
  induction columns generalizing members with
  | nil => simp
  | cons c columns ih =>
    have hlt := hcells c List.mem_cons_self
    have hcell := cell_eq hlt
    rw [List.map_cons, List.nodup_cons] at hkeys
    have hset : (Json.obj members).set c.1 (.str (row.cells.getD c.2 "")) =
        .obj (members ++ [(c.1, .str (row.cells.getD c.2 ""))]) :=
      congrArg Json.obj (assign_fresh (hfresh c List.mem_cons_self) _)
    rw [Program.loop_cons, hcell, Program.ret_bind, Program.pure_eq, Program.ret_bind, hset,
      ih (fun c' hc' => hcells c' (List.mem_cons_of_mem _ hc')) hkeys.2, List.map_cons,
      List.append_assoc, List.singleton_append]
    intro c' hc' m hm
    rw [List.mem_append, List.mem_singleton] at hm
    rcases hm with hm | rfl
    · exact hfresh c' (List.mem_cons_of_mem _ hc') m hm
    · exact fun heq => hkeys.1 (heq ▸ List.mem_map_of_mem hc')

/-- A row that has the columns. -/
theorem toJson_eq {row : Row} {columns : List (String × ℕ)} (hne : columns ≠ [])
    (hcells : ∀ c ∈ columns, c.2 < row.cells.length) (hkeys : (columns.map Prod.fst).Nodup) :
    toJson columns row = Program.ret (rowObject columns row.cells) := by
  have hnull : ∀ (f : Json → String × ℕ → Handler Json), (∀ c, f .null c = f (.obj []) c) →
      Program.loop f .null columns = Program.loop f (.obj []) columns := by
    intro f hf
    cases columns with
    | nil => exact absurd rfl hne
    | cons c columns => rw [Program.loop_cons, Program.loop_cons, hf]
  rw [toJson, hnull _ (fun _ => rfl), toJson_go columns hcells hkeys
    (fun _ _ _ hm => absurd hm List.not_mem_nil)]
  rfl

/-- A video of the list is made of six columns. -/
theorem toJson_VodListInfo_eq (server : Server) (row : Row) : toJson_VodListInfo server row =
    if 5 < row.cells.length then Program.ret (vodObject server row.cells) else Program.fail := by
  split
  · rename_i hlt
    have hcell : ∀ i, i ≤ 5 → cell row i = Program.ret (row.cells.getD i "") :=
      fun i hi => cell_eq (hi.trans_lt hlt)
    simp only [toJson_VodListInfo, hcell 0 (by decide), hcell 1 (by decide), hcell 2 (by decide),
      hcell 3 (by decide), hcell 5 (by decide), Program.ret_bind, Program.pure_eq]
    rfl
  · rename_i hshort
    have hlast : cell row 5 = Program.fail := by
      rw [cell, List.getElem?_eq_none (Nat.le_of_not_lt hshort), Program.ofOption_none]
    have hbefore : ∀ (i : ℕ) (f : String → Handler Json), (∀ text, f text = Program.fail) →
        cell row i >>= f = Program.fail := by
      intro i f hf
      unfold cell
      cases row.cells[i]? with
      | none => rfl
      | some text => exact hf text
    refine hbefore 0 _ fun _ => hbefore 2 _ fun _ => hbefore 1 _ fun _ => hbefore 3 _ fun _ => ?_
    rw [hlast]
    rfl

/-- Objects are made of rows one after the other. -/
theorem loop_push {α : Type} {item : α → Handler Json} {g : α → Json} {rows : List α}
    (h : ∀ row ∈ rows, item row = Program.ret (g row)) (done : List Json) :
    Program.loop (fun items row => do
      let info ← item row
      pure (items.push_back info)) (listOf done) rows =
      (Program.ret (listOf (done ++ rows.map g)) : Handler Json) := by
  induction rows generalizing done with
  | nil => simp
  | cons row rows ih =>
    rw [Program.loop_cons, h row List.mem_cons_self, Program.ret_bind, Program.pure_eq,
      Program.ret_bind, push_back_listOf, ih (fun r hr => h r (List.mem_cons_of_mem _ hr)),
      List.map_cons, List.append_assoc, List.singleton_append]

/-! ### Lengths -/

/-- The length of a string's text. -/
def strLength (s : String) : ℕ := (Json.dump_escaped s).length + 2

/-- The length of a number's text. -/
def intLength (n : ℤ) : ℕ := (utf8 (toString n)).length

/-- The length of an object's text, from its keys and the lengths of its members. -/
def objLength (members : List (String × ℕ)) : ℕ :=
  2 + (members.map fun m => (Json.dump_escaped m.1).length + 3 + m.2).sum + (members.length - 1)

/-- The length of a list's text, from the lengths of its items. -/
def listLength : List ℕ → ℕ
  | [] => 4
  | lengths => 2 + lengths.sum + (lengths.length - 1)

/-- The length of an object with cells of a row. -/
def cellsLength (columns : List (String × ℕ)) (cells : List String) : ℕ :=
  objLength (columns.map fun c => (c.1, strLength (cells.getD c.2 "")))

/-- The length of a video of the list. -/
def vodObjectLength (server : Server) (cells : List String) : ℕ :=
  objLength [("videoId", strLength (cells.getD 0 "")), ("publisherId", strLength (cells.getD 1 "")),
    ("url", strLength (NET_VIDEO_URL server ++ cells.getD 0 "" ++ cells.getD 2 "")),
    ("profile", strLength (cells.getD 3 "")), ("time", strLength (cells.getD 5 ""))]

/-- The length of a pushed video. -/
def pushLength (videoId : String) : Option String → ℕ
  | some publisherId =>
    objLength [("videoId", strLength videoId), ("publisherId", strLength publisherId)]
  | none => objLength [("videoId", strLength videoId)]

/-- The length of an answer. -/
def infoLength (infotype : InfoType) (key : String) (value : ℕ) : ℕ :=
  objLength [("infotype", intLength infotype.code), (key, value)]

/-- The length of an answer about a user. -/
def infoOfLength (infotype : InfoType) (userId key : String) (value : ℕ) : ℕ :=
  objLength [("infotype", intLength infotype.code), ("userId", strLength userId), (key, value)]

/-- Numbers of an `int` take ten digits at most. -/
theorem intLength_le {n : ℤ} (hlow : 0 ≤ n) (hhigh : n < 2 ^ 31) : intLength n ≤ 10 := by
  rw [intLength, utf8_nonneg hlow, Decimal.length_digits_le_iff (by decide)]
  omega

theorem infoLength_eq (infotype : InfoType) (key : String) (value : ℕ) :
    infoLength infotype key value = infoLength infotype key 0 + value := by
  simp only [infoLength, objLength, List.map_cons, List.map_nil, List.sum_cons, List.sum_nil,
    List.length_cons, List.length_nil]
  omega

theorem listLength_perm {lengths lengths' : List ℕ} (h : lengths.Perm lengths') :
    listLength lengths = listLength lengths' := by
  cases lengths with
  | nil => rw [List.nil_perm.mp h]
  | cons n lengths =>
    cases lengths' with
    | nil => rw [List.perm_nil.mp h]
    | cons n' lengths' =>
      show 2 + List.sum _ + (List.length _ - 1) = 2 + List.sum _ + (List.length _ - 1)
      rw [h.sum_nat, h.length_eq]

/-- A text has a length, and the value is one that is written. -/
structure HasLength (j : Json) (n : ℕ) : Prop where
  /-- The length. -/
  length : j.text.length = n
  /-- The value. -/
  written : Written j

theorem hasLength_str (s : String) : HasLength (.str s) (strLength s) :=
  ⟨Json.length_text_str s, written_str s⟩

theorem hasLength_int {n : ℤ} (hlow : -2 ^ 31 ≤ n) (hhigh : n < 2 ^ 31) :
    HasLength (.int n) (intLength n) :=
  ⟨rfl, written_int hlow hhigh⟩

theorem hasLength_code (infotype : InfoType) :
    HasLength (.int infotype.code) (intLength infotype.code) :=
  hasLength_int (by cases infotype <;> decide) (by cases infotype <;> decide)

theorem hasLength_null : HasLength .null 4 := ⟨by decide, written_null⟩

theorem hasLength_bool (b : Bool) : HasLength (.bool b) (if b then 4 else 5) := by
  refine ⟨?_, written_bool b⟩
  cases b <;> decide

/-- Members with the lengths of their values. -/
def MemberLength (m : String × Json) (l : String × ℕ) : Prop := m.1 = l.1 ∧ HasLength m.2 l.2

theorem hasLength_obj {members : List (String × Json)} {lengths : List (String × ℕ)}
    (hkeys : (members.map Prod.fst).Nodup) (h : List.Forall₂ MemberLength members lengths) :
    HasLength (.obj members) (objLength lengths) := by
  have hparts : (members.map fun m => (Json.dump_escaped m.1).length + 3 + m.2.text.length) =
      lengths.map (fun l => (Json.dump_escaped l.1).length + 3 + l.2) ∧
        ∀ m ∈ members, Written m.2 := by
    clear hkeys
    induction h with
    | nil => exact ⟨rfl, by simp⟩
    | @cons m l members lengths hm _ ih =>
      refine ⟨?_, List.forall_mem_cons.mpr ⟨hm.2.written, ih.2⟩⟩
      rw [List.map_cons, List.map_cons, ih.1, hm.1, hm.2.length]
  refine ⟨?_, written_obj_iff.mpr ⟨hkeys, hparts.2⟩⟩
  rw [Json.length_text_obj, hparts.1, h.length_eq, objLength]

theorem hasLength_listOf {values : List Json} {lengths : List ℕ}
    (h : List.Forall₂ HasLength values lengths) :
    HasLength (listOf values) (listLength lengths) := by
  have hparts : (values.map fun j => j.text.length) = lengths ∧ ∀ j ∈ values, Written j := by
    induction h with
    | nil => exact ⟨rfl, by simp⟩
    | cons hj _ ih =>
      exact ⟨by rw [List.map_cons, ih.1, hj.length], List.forall_mem_cons.mpr ⟨hj.written, ih.2⟩⟩
  cases h with
  | nil => exact hasLength_null
  | cons hj hrest =>
    refine ⟨?_, written_arr_iff.mpr hparts.2⟩
    show (Json.arr (_ :: _)).text.length = 2 + List.sum (_ :: _) + (List.length (_ :: _) - 1)
    rw [Json.length_text_arr, hparts.1, List.length_cons, hrest.length_eq, List.length_cons]

/-- Items that are made of things one by one. -/
theorem hasLength_map {α : Type} {f : α → Json} {g : α → ℕ} (h : ∀ a, HasLength (f a) (g a))
    (as : List α) :
    HasLength (listOf (as.map f)) (listLength (as.map g)) := by
  apply hasLength_listOf
  rw [List.forall₂_map_left_iff, List.forall₂_map_right_iff, List.forall₂_same]
  exact fun a _ => h a

theorem hasLength_rowObject {columns : List (String × ℕ)} (hkeys : (columns.map Prod.fst).Nodup)
    (cells : List String) : HasLength (rowObject columns cells) (cellsLength columns cells) := by
  apply hasLength_obj
  · rwa [List.map_map]
  · rw [List.forall₂_map_left_iff, List.forall₂_map_right_iff, List.forall₂_same]
    exact fun c _ => ⟨rfl, hasLength_str _⟩

theorem hasLength_vodObject (server : Server) (cells : List String) :
    HasLength (vodObject server cells) (vodObjectLength server cells) :=
  hasLength_obj (show ["videoId", "publisherId", "url", "profile", "time"].Nodup by decide)
    (.cons ⟨rfl, hasLength_str _⟩ (.cons ⟨rfl, hasLength_str _⟩ (.cons ⟨rfl, hasLength_str _⟩
      (.cons ⟨rfl, hasLength_str _⟩ (.cons ⟨rfl, hasLength_str _⟩ .nil)))))

theorem hasLength_pushJson (push : String × Option String) :
    HasLength (pushJson push.1 push.2) (pushLength push.1 push.2) := by
  obtain ⟨videoId, last⟩ := push
  cases last with
  | none =>
    exact hasLength_obj (show ["videoId"].Nodup by decide) (.cons ⟨rfl, hasLength_str _⟩ .nil)
  | some publisherId =>
    exact hasLength_obj (show ["videoId", "publisherId"].Nodup by decide)
      (.cons ⟨rfl, hasLength_str _⟩ (.cons ⟨rfl, hasLength_str _⟩ .nil))

theorem hasLength_info {key : String} {value : Json} {n : ℕ} (infotype : InfoType)
    (hkey : key ≠ "infotype") (h : HasLength value n) :
    HasLength (NetPacketGenerator.info infotype key value) (infoLength infotype key n) := by
  have hobj : NetPacketGenerator.info infotype key value =
      .obj [("infotype", .int infotype.code), (key, value)] := by
    simp [NetPacketGenerator.info, Json.set, Json.assign, hkey.symm]
  rw [hobj]
  exact hasLength_obj (show ["infotype", key].Nodup by simpa using hkey.symm)
    (.cons ⟨rfl, hasLength_code _⟩ (.cons ⟨rfl, h⟩ .nil))

theorem hasLength_infoOf {key : String} {value : Json} {n : ℕ} (infotype : InfoType)
    (userId : String) (hkey : key ≠ "infotype" ∧ key ≠ "userId") (h : HasLength value n) :
    HasLength (NetPacketGenerator.infoOf infotype userId key value)
      (infoOfLength infotype userId key n) := by
  have hobj : NetPacketGenerator.infoOf infotype userId key value =
      .obj [("infotype", .int infotype.code), ("userId", .str userId), (key, value)] := by
    simp [NetPacketGenerator.infoOf, Json.set, Json.assign, hkey.1.symm, hkey.2.symm]
  rw [hobj]
  refine hasLength_obj ?_
    (.cons ⟨rfl, hasLength_code _⟩ (.cons ⟨rfl, hasLength_str _⟩ (.cons ⟨rfl, h⟩ .nil)))
  show ["infotype", "userId", key].Nodup
  simpa using ⟨hkey.1.symm, hkey.2.symm⟩

/-- **Whether a message fits**, told from its length. -/
theorem fits_iff {lib : Nlohmann} (hlib : lib.Writes) {message : Json} {n : ℕ}
    (h : HasLength message n) :
    NetPacketGenerator.fits lib message = true ↔ n < BUF_SIZE := by
  rw [NetPacketGenerator.fits, decide_eq_true_eq, hlib.dump_eq h.written, h.length]

/-- The outcome of a registration or a login fits. -/
theorem fits_success {lib : Nlohmann} (hlib : lib.Writes) (ok : Bool) :
    NetPacketGenerator.fits lib (NetPacketGenerator.success ok) = true := by
  have hlength : HasLength (NetPacketGenerator.success ok)
      (objLength [("success", strLength (if ok then "true" else "false"))]) :=
    hasLength_obj (show ["success"].Nodup by decide) (.cons ⟨rfl, hasLength_str _⟩ .nil)
  rw [fits_iff hlib hlength]
  cases ok <;> decide

end PickUpLight.Control
