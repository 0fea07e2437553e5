import PickUpLight.Store.Texts

/-!
# Nicknames and profiles

`modify_info` gives a user another nickname and a video another profile, by one statement each. The
text is within quotes and as it is, the id is without: a `Literal` is stored as it is, and in all
rows whose ids are taken to be equal to that number, however they are written.
-/

namespace PickUpLight.Store

open PickUpLight.Theory PickUpLight.Control PickUpLight.Wire PickUpLight.Sql

/-- What is given another text. -/
inductive Rename where
  | NickName
  | VideoProfile
  deriving DecidableEq, Repr

namespace Rename

def ofInfo : InfoType → Option Rename
  | .NickName => some NickName
  | .VideoProfile => some VideoProfile
  | _ => none

/-- The members of a request: the id, and the text. -/
def keys : Rename → String × String
  | NickName => ("userId", "newNickName")
  | VideoProfile => ("videoId", "newProfile")

def table : Rename → Table
  | NickName => .User
  | VideoProfile => .Video

/-- The column of the text. -/
def column : Rename → String
  | NickName => "nickName"
  | VideoProfile => "profile"

/-- Where the column is. -/
def index : Rename → ℕ
  | NickName => 2
  | VideoProfile => 3

/-- How long a text it holds. -/
def room : Rename → ℕ
  | NickName => 30
  | VideoProfile => 500

def command : Rename → String → String → Control.Command
  | NickName => .updateNickName
  | VideoProfile => .updateProfile

variable (k : Rename) (equals : String → String → Bool) (s id : String)

/-- A row with the id gets the text. -/
def after (cells : Cells) : Cells := if cells.getD 0 "" = id then cells.set k.index s else cells

/-- A row whose id is taken to be equal to the id has the id, or has the text already. -/
def Exact (t : Tables) : Prop :=
  ∀ cells ∈ t.cells k.table, equals (cells.getD 0 "") id = true →
    cells.getD 0 "" = id ∨ cells.getD k.index "" = s

end Rename

/-- The text and the id in a request. -/
def renameOf (lib : Nlohmann) (buf : List UInt8) : Option (Rename × String × String) :=
  (lib.parse buf).bind fun jsonMsg => (jsonMsg.enum "infotype").bind fun code =>
    (InfoType.ofCode code).bind fun infotype => (Rename.ofInfo infotype).bind fun k =>
      (jsonMsg.string k.keys.1).bind fun id => (jsonMsg.string k.keys.2).map fun s => (k, s, id)

/-! ### Statements -/

section Statements

variable {s id : String} {k : Rename}

theorem parse_updateNickName (hs : Literal s.toList) (hid : IsNumber id) :
    parse (Control.Command.updateNickName s id).text =
      some (.command (.update "User" "nickName" s [⟨"id", id⟩])) :=
  parse_template_number (.literal (.code rfl) hs rfl rfl) hid rfl

theorem parse_updateProfile (hs : Literal s.toList) (hid : IsNumber id) :
    parse (Control.Command.updateProfile s id).text =
      some (.command (.update "Video" "profile" s [⟨"id", id⟩])) :=
  parse_template_number (.literal (.code rfl) hs rfl rfl) hid rfl

theorem parse_rename (hs : Literal s.toList) (hid : IsNumber id) : parse (k.command s id).text =
    some (.command (.update k.table.name k.column s [⟨"id", id⟩])) := by
  cases k with
  | NickName => exact parse_updateNickName hs hid
  | VideoProfile => exact parse_updateProfile hs hid

theorem changes_rename : (k.command s id).changes = some k.table := by cases k <;> rfl

theorem edit_rename {w : String} (hw : w.length ≤ k.room) (equals : String → String → Bool)
    (now : String) :
    (Sql.Command.update k.table.name k.column w [⟨"id", id⟩]).edit schema equals now =
      .does (k.table.name, .update fun cells =>
        if meets equals [(0, id)] cells then cells.set k.index w else cells) := by
  cases k with
  | NickName =>
    have hstores : Column.stores now ⟨"nickName", .varchar 30⟩ (.text w) = .does w :=
      stores_text hw ..
    have hedit : (Sql.Command.update "User" "nickName" w [⟨"id", id⟩]).edit schema equals now = (do
        let cell ← (Column.stores now ⟨"nickName", .varchar 30⟩ (.text w)).orUnknown
        pure ("User", .update fun cells => if meets equals [(0, id)] cells then cells.set 2 cell
          else cells)) := rfl
    rw [hstores] at hedit
    exact hedit
  | VideoProfile =>
    have hstores : Column.stores now ⟨"profile", .varchar 500⟩ (.text w) = .does w :=
      stores_text hw ..
    have hedit : (Sql.Command.update "Video" "profile" w [⟨"id", id⟩]).edit schema equals now = (do
        let cell ← (Column.stores now ⟨"profile", .varchar 500⟩ (.text w)).orUnknown
        pure ("Video", .update fun cells => if meets equals [(0, id)] cells then cells.set 3 cell
          else cells)) := rfl
    rw [hstores] at hedit
    exact hedit

/-- The end of the statement. -/
theorem tokensFrom_ending (hid : IsNumber id) :
    tokensFrom (.between, []) (" where id =" ++ id).toList =
    some [.word "where", .word "id", .symbol '=', .number id] := by
  have hcode : Scans " where id =" .between [.word "where", .word "id", .symbol '='] := .code rfl
  exact hcode.lex_number hid

theorem quote_not_mem_ending (hid : IsNumber id) : quote ∉ (" where id =" ++ id).toList := by
  rw [String.toList_append, List.mem_append, not_or]
  refine ⟨by decide, fun hmem => ?_⟩
  have hdigit := hid.2 quote hmem
  cases hdigit

/-- An update with a text spliced in, if it is one statement at all, is an update with what is
read. -/
theorem update_of_spliced {text before table column : String} {c : Sql.Command} {ts : List Token}
    (hid : IsNumber id) (htext : text = before ++ s ++ "' where id =" ++ id)
    (h : Scans before (.text []) ts)
    (hstatement : ∀ w more, Parser.statement (ts ++ .text w :: more) =
      ((Parser.conditions more).bind fun x => Parser.complete (.update table column w x.1) x.2).map
      Statement.command)
    (hparse : parse text = some (.command c)) :
    ∃ w, c = .update table column w [⟨"id", id⟩] ∧ w.length ≤ s.length ∧
      (w = s → Literal s.toList) := by
  have hchars :
      text.toList = before.toList ++ (s.toList ++ quote :: (" where id =" ++ id).toList) := by
    rw [htext]
    simp [quote]
  obtain ⟨w, more, hst, hlen, hliteral, hmore⟩ :=
    parse_spliced h hchars (quote_not_mem_ending hid) (tokensFrom_ending hid) hparse
  rw [hstatement] at hst
  obtain ⟨c', hst, hc⟩ := Option.map_eq_some_iff.mp hst
  cases hc
  obtain ⟨⟨ts, rest⟩, hconditions, hover⟩ := Option.bind_eq_some_iff.mp hst
  have hrest : rest = [] ∧ c = .update table column w ts := by
    cases rest with
    | nil => exact ⟨rfl, (Option.some.inj hover).symm⟩
    | cons token rest => cases hover
  obtain ⟨rfl, rfl⟩ := hrest
  rcases hmore with ⟨w', hw'⟩ | rfl
  · -- what is left of the text is no condition
    cases Parser.text_not_mem_conditions hconditions hw'
  · cases hconditions
    exact ⟨w, rfl, hlen, hliteral⟩

theorem update_of_rename {c : Sql.Command} (hid : IsNumber id)
    (hparse : parse (k.command s id).text = some (.command c)) :
    ∃ w, c = .update k.table.name k.column w [⟨"id", id⟩] ∧ w.length ≤ s.length ∧
      (w = s → Literal s.toList) := by
  cases k with
  | NickName => exact update_of_spliced hid rfl (.code rfl) (fun _ _ => rfl) hparse
  | VideoProfile => exact update_of_spliced hid rfl (.code rfl) (fun _ _ => rfl) hparse

theorem parse_selectNickName (hid : IsNumber id) : parse (Control.Command.selectNickName id).text =
    some (.query (.rows (some ["nickName"]) ⟨"User", [⟨"id", id⟩]⟩ none none)) :=
  parse_template_number (.code rfl) hid rfl

theorem answers_selectNickName (t : Tables) (equals : String → String → Bool) :
    (Query.rows (some ["nickName"]) ⟨"User", [⟨"id", id⟩]⟩ none none).answers schema
      equals t.contents =
      .does fun answer => ∃ all : List Cells,
      all.Perm ((t.cells .User).filter (meets equals [(0, id)])) ∧
        Descending none all ∧ answer = all.map (project (some [2])) := rfl

theorem parse_selectVideos (offset num : ℕ) : parse (Control.Command.selectVideos offset num).text =
    some (.query (.rows none ⟨"Video", []⟩ none (some (offset, num)))) := by
  have hoffset := Canonical.isNumber ⟨offset, rfl⟩
  have hnum := Canonical.isNumber ⟨num, rfl⟩
  refine parse_template_number (.number (.code rfl) hoffset rfl rfl) hnum ?_
  have hlimit : (value (toString offset), value (toString num)) = (offset, num) := by
    rw [value_toString, value_toString]
  exact congrArg (fun limit => some (Statement.query (.rows none ⟨"Video", []⟩ none (some limit))))
    hlimit

theorem answers_selectVideos (t : Tables) (equals : String → String → Bool) (offset num : ℕ) :
    (Query.rows none ⟨"Video", []⟩ none (some (offset, num))).answers schema equals t.contents =
      .does fun answer => ∃ all : List Cells, all.Perm ((t.cells .Video).filter (meets equals [])) ∧
        Descending none all ∧ answer = (slice (some (offset, num)) all).map (project none) := rfl

end Statements

/-! ### Replies -/

/-- The user a request asks for the nickname of. -/
def nickNameQuery (lib : Nlohmann) (buf : List UInt8) : Option String :=
  (lib.parse buf).bind fun jsonMsg => (jsonMsg.enum "infotype").bind fun infotype =>
    if InfoType.ofCode infotype = some .NickName then jsonMsg.string "userId" else none

/-- The videos a request asks for: an offset and a number. -/
def vodQuery (lib : Nlohmann) (buf : List UInt8) : Option (ℤ × ℤ) :=
  (lib.parse buf).bind fun jsonMsg => (jsonMsg.enum "infotype").bind fun infotype =>
    if InfoType.ofCode infotype = some .VodList then
      (jsonMsg.integer "offset").bind fun offset => (jsonMsg.integer "num").map fun num =>
        (offset, num)
    else none

/-- The message that tells a nickname. -/
def nickNameMessage (id s : String) : Json :=
  NetPacketGenerator.info .NickName "nickNameInfo" (SendInfoControl.toJson_NickNameInfo id s)

/-- How long it is. -/
def nickNameLength (id s : String) : ℕ :=
  infoLength .NickName "nickNameInfo"
    (objLength [("userId", strLength id), ("nickName", strLength s)])

theorem hasLength_nickNameMessage (id s : String) :
    HasLength (nickNameMessage id s) (nickNameLength id s) := by
  have hobj : HasLength (SendInfoControl.toJson_NickNameInfo id s)
      (objLength [("userId", strLength id), ("nickName", strLength s)]) :=
    hasLength_obj (show ["userId", "nickName"].Nodup by decide)
      (.cons ⟨rfl, hasLength_str _⟩ (.cons ⟨rfl, hasLength_str _⟩ .nil))
  exact hasLength_info .NickName (by decide) hobj

/-- The message that lists videos. -/
def vodMessage (server : Server) (rows : List Cells) : Json :=
  NetPacketGenerator.info .VodList "vodList" (listOf (rows.map (vodObject server)))

/-- How long it is. -/
def vodListLength (server : Server) (rows : List Cells) : ℕ :=
  infoLength .VodList "vodList" (listLength (rows.map (vodObjectLength server)))

theorem hasLength_vodMessage (server : Server) (rows : List Cells) :
    HasLength (vodMessage server rows) (vodListLength server rows) :=
  hasLength_info .VodList (by decide) (hasLength_map (hasLength_vodObject server) rows)

section Replies

variable {lib : Nlohmann} {server : Server} {buf : List UInt8} {s id : String} {t : Tables}
  {H : Type}
  {db : Database H} {now : H → String} {equals : String → String → Bool} {m : Meeting H}

theorem send_info_nickName (h : nickNameQuery lib buf = some id) :
    SendInfoControl.send_info lib server buf =
    SendInfoControl.sendFirst server (.selectNickName id)
      (fun row => do pure (SendInfoControl.toJson_NickNameInfo id (← Handler.cell row 0)))
      (NetPacketGenerator.sendNickNameInfo_P lib) := by
  simp only [nickNameQuery, Option.bind_eq_some_iff, Option.ite_none_right_eq_some] at h
  obtain ⟨jsonMsg, hparse, infotype, hinfo, htype, hid⟩ := h
  simp only [SendInfoControl.send_info, hparse, hinfo, Program.ofOption_some, Program.ret_bind,
    htype, SendInfoControl.answer, Handler.str_eq hid]

theorem send_info_vod {offset num : ℤ} (h : vodQuery lib buf = some (offset, num)) :
    SendInfoControl.send_info lib server buf =
      SendInfoControl.sendList server (.selectVideos offset num)
      (SendInfoControl.toJson_VodListInfo server)
        (NetPacketGenerator.sendVodList_P lib) := by
  simp only [vodQuery, Option.bind_eq_some_iff, Option.ite_none_right_eq_some,
    Option.map_eq_some_iff] at h
  obtain ⟨jsonMsg, hparse, infotype, hinfo, htype, o, ho, n, hn, heq⟩ := h
  cases heq
  simp only [SendInfoControl.send_info, hparse, hinfo, Program.ofOption_some, Program.ret_bind,
    htype, SendInfoControl.answer, ho, hn]

/-- **A nickname is told**, when all rows that are found have it. -/
theorem replies_nickName (server : Server) (hdb : db.Obeys now equals) (hup : db.Up now equals m.db)
    (hbuf : nickNameQuery lib buf = some id) (hid : IsNumber id)
    (hfound : ∃ cells ∈ t.cells .User, equals (cells.getD 0 "") id = true)
    (hall : ∀ cells ∈ t.cells .User, equals (cells.getD 0 "") id = true → cells.getD 2 "" = s) :
    db.replies m (SendInfoControl.send_info lib server buf) t =
      if NetPacketGenerator.fits lib (nickNameMessage id s) then [⟨.GetInfo, nickNameMessage id s⟩]
      else [] := by
  obtain ⟨rows, hrows, all, hperm, -, hanswer⟩ :=
    hdb.query_up (t := t) hup (parse_selectNickName hid) (answers_selectNickName t equals)
  cases rows with
  | nil =>
    -- a row is found
    obtain ⟨cells, hcells, hequals⟩ := hfound
    have hmem : cells ∈ all :=
      hperm.mem_iff.mpr (List.mem_filter.mpr ⟨hcells, by rw [meets_singleton, hequals]⟩)
    rw [List.map_nil, eq_comm, List.map_eq_nil_iff] at hanswer
    rw [hanswer] at hmem
    cases hmem
  | cons row rows =>
    cases all with
    | nil => cases hanswer
    | cons cells all =>
      rw [List.map_cons, List.map_cons, List.cons.injEq] at hanswer
      obtain ⟨hcells, hequals⟩ := List.mem_filter.mp (hperm.mem_iff.mp (List.mem_cons_self ..))
      rw [meets_singleton] at hequals
      have hcell : Handler.cell row 0 = Program.ret s := by
        have hs := hall cells hcells hequals
        rw [Handler.cell, hanswer.1, ← hs]
        rfl
      rw [send_info_nickName hbuf]
      refine replies_sendFirst (fun _ => rfl) hrows ?_
      rw [hcell, Program.ret_bind]
      rfl

/-- The rows that are answered are listed, if they fit. -/
theorem replies_vodList (server : Server) {offset num : ℤ}
    (hbuf : vodQuery lib buf = some (offset, num)) {rows : List Row}
    (hrows : db.store t m.db (Control.Command.selectVideos offset num).text = some rows)
    (hcells : ∀ cells ∈ rows.map Row.cells, cells.length = 6) :
    db.replies m (SendInfoControl.send_info lib server buf) t =
      if NetPacketGenerator.fits lib (vodMessage server (rows.map Row.cells)) then
        [⟨.GetInfo, vodMessage server (rows.map Row.cells)⟩]
      else [] := by
  have hpacket : ∀ j, NetPacketGenerator.sendVodList_P lib j =
      NetPacketGenerator.packet lib .GetInfo (NetPacketGenerator.info .VodList "vodList" j) :=
        fun _ => rfl
  have hitem : ∀ row ∈ rows, SendInfoControl.toJson_VodListInfo server row =
      Program.ret (vodObject server row.cells) := by
    intro row hrow
    rw [toJson_VodListInfo_eq, if_pos (by rw [hcells _ (List.mem_map_of_mem hrow)]; decide)]
  have hobjects :
      rows.map (fun row => vodObject server row.cells) =
        (rows.map Row.cells).map (vodObject server) := by
    rw [List.map_map]
    rfl
  rw [send_info_vod hbuf, replies_sendList hpacket hrows hitem, hobjects]
  rfl

/-- **Videos are listed**, from an offset on and up to a number. -/
theorem replies_vod (server : Server) (hdb : db.Obeys now equals) (hup : db.Up now equals m.db)
    (ht : t.Shaped) {offset num : ℕ} (hbuf : vodQuery lib buf = some ((offset : ℤ), (num : ℤ))) :
    ∃ all : List Cells, all.Perm (t.cells .Video) ∧
      db.replies m (SendInfoControl.send_info lib server buf) t =
      if NetPacketGenerator.fits lib (vodMessage server ((all.drop offset).take num)) then
        [⟨.GetInfo, vodMessage server ((all.drop offset).take num)⟩]
      else [] := by
  obtain ⟨rows, hrows, all, hperm, -, hanswer⟩ :=
    hdb.query_up (t := t) hup (parse_selectVideos offset num)
      (answers_selectVideos t equals offset num)
  have hproject : (slice (some (offset, num)) all).map (project none) =
    slice (some (offset, num)) all := List.map_id _
  have hfilter : (t.cells .Video).filter (meets equals []) = t.cells .Video := List.filter_true _
  rw [hproject] at hanswer
  rw [hfilter] at hperm
  refine ⟨all, hperm, ?_⟩
  have hlength : ∀ cells ∈ rows.map Row.cells, cells.length = 6 := by
    intro cells hcells
    rw [hanswer] at hcells
    exact ht .Video cells (hperm.mem_iff.mp (List.mem_of_mem_drop (List.mem_of_mem_take hcells)))
  rw [replies_vodList server hbuf hrows hlength, hanswer]
  rfl

end Replies

/-! ### Renames -/

/-- Two changes of rows are the same if they are the same for every row there is. -/
theorem Tables.apply_update_eq_iff {t : Tables} {table : Table} {f g : Cells → Cells} :
    t.apply table (.update fun row => f row.cells) =
      t.apply table (.update fun row => g row.cells) ↔
      ∀ cells ∈ t.cells table, f cells = g cells := by
  constructor
  · intro h
    have hcells := congrArg (fun t => t.cells table) h
    have hf := Tables.cells_update t table f
    have hg := Tables.cells_update t table g
    simp only [changeOf] at hf hg
    simp only [hf, hg] at hcells
    exact List.map_inj_left.mp hcells
  · intro h
    have hrows : (t.rows table).map (fun row => { row with cells := f row.cells }) =
        (t.rows table).map fun row => { row with cells := g row.cells } := by
      refine List.map_congr_left fun row hrow => ?_
      rw [h row.cells (List.mem_map_of_mem hrow)]
    simp only [Tables.apply, hrows]

/-- A later request asks for the text: for the nickname of the user, or for some of the videos. -/
def Rename.Asked (lib : Nlohmann) (ask : List UInt8) (id : String) (offset num : ℕ) : Rename → Prop
  | NickName => nickNameQuery lib ask = some id
  | VideoProfile => vodQuery lib ask = some ((offset : ℤ), (num : ℤ))

/-- It is told the text: the nickname of the user, or videos of which those with the id have the
text. -/
def Rename.Told (server : Server) (s id : String) (offset num : ℕ) (t : Tables)
    (replies : List NetPacket) : Rename → Prop
  | NickName => replies = [⟨.GetInfo, nickNameMessage id s⟩]
  | VideoProfile => ∃ all : List Cells, all.Perm (t.cells .Video) ∧
      (∀ cells ∈ all, cells.getD 0 "" = id → cells.getD 3 "" = s) ∧
      replies = [⟨.GetInfo, vodMessage server ((all.drop offset).take num)⟩]

/-- The reply fits into a packet, whatever order the videos are found in. -/
def Rename.Room (server : Server) (s id : String) (offset num : ℕ) (t : Tables) : Rename → Prop
  | NickName => nickNameLength id s < BUF_SIZE
  | VideoProfile => ∀ all : List Cells, all.Perm (t.cells .Video) →
      vodListLength server ((all.drop offset).take num) < BUF_SIZE

/-- **A nickname or a profile is stored as it was sent**, in the rows with the id and with nothing
else changed, and whoever asks for it is told. -/
def RenameSurvives (lib : Nlohmann) (server : Server) (equals : String → String → Bool)
    (buf ask : List UInt8) (k : Rename) (s id : String) (offset num : ℕ) (time : String)
    (t : Tables) : Prop :=
  Always equals time fun db now m =>
    db.handle m (ModifyInfoControl.modify_info lib server buf) t =
      ([⟨.query_execute (k.command s id), true⟩],
        t.apply k.table (.update fun row => k.after s id row.cells)) ∧
    ∀ m' : Meeting _, db.Up now equals m'.db →
      k.Told server s id offset num (t.apply k.table (.update fun row => k.after s id row.cells))
        (db.replies m' (SendInfoControl.send_info lib server ask)
          (t.apply k.table (.update fun row => k.after s id row.cells)))

/-! ### Videos in any order -/

section Answering

variable {H : Type} (db : Database H)

/-- A database with another answer to a query on some videos. -/
def Database.answering (text : String) (videos : List Cells) (rows : List Row) : Database H where
  store t h text' :=
    if text' = text ∧ t.cells .Video = videos then some rows else db.store t h text'
  execute := db.execute

variable {db} {now : H → String} {equals : String → String → Bool} {offset num : ℕ}
  {videos all : List Cells}
  {rows : List Row}

/-- The answer may be what is found in any order. -/
theorem Database.Obeys.answering (hdb : db.Obeys now equals) (hall : all.Perm videos)
    (hrows : rows.map Row.cells = (all.drop offset).take num) :
    (db.answering (Control.Command.selectVideos offset num).text videos rows).Obeys now equals where
  executes := hdb.executes
  refuses := hdb.refuses
  answers t h text q A hparse hA := by
    simp only [Database.answering]
    split
    · rename_i hquery
      obtain ⟨rfl, rfl⟩ := hquery
      refine .inr ⟨rows, rfl, ?_⟩
      rw [parse_selectVideos, Option.some.injEq, Statement.query.injEq] at hparse
      rw [← hparse, answers_selectVideos, Outcome.does.injEq] at hA
      have hfilter : (t.cells .Video).filter (meets equals []) = t.cells .Video :=
        List.filter_true _
      have hproject : ∀ found : List Cells, found.map (project none) = found := List.map_id
      rw [← hA, hfilter]
      exact ⟨all, hall, trivial, hrows.trans (hproject _).symm⟩
    · exact hdb.answers t h text q A hparse hA

theorem Database.Up.answering {h : H} (hup : db.Up now equals h) (text : String) :
    (db.answering text videos rows).Up now equals h where
  executes := hup.executes
  answers t text' q A hparse hA := by
    simp only [Database.answering]
    split
    · exact Option.some_ne_none _
    · exact hup.answers t text' q A hparse hA

end Answering

section Renames

variable {lib : Nlohmann} {server : Server} {equals : String → String → Bool} {buf : List UInt8}
  {k : Rename}
  {s id : String} {t : Tables}

theorem modify_info_rename (h : renameOf lib buf = some (k, s, id)) :
    ModifyInfoControl.modify_info lib server buf =
    Handler.query_execute (k.command s id) >>= fun _ => Program.ret () := by
  simp only [renameOf, Option.bind_eq_some_iff, Option.map_eq_some_iff] at h
  obtain ⟨jsonMsg, hparse, code, hcode, infotype, htype, k', hk, id', hid, s', hs, heq⟩ := h
  cases heq
  simp only [ModifyInfoControl.modify_info, hparse, hcode, Program.ofOption_some, Program.ret_bind,
    htype]
  cases infotype with
  | NickName =>
    cases hk
    have hid : Handler.str jsonMsg "userId" = Program.ret id := Handler.str_eq hid
    have hs : Handler.str jsonMsg "newNickName" = Program.ret s := Handler.str_eq hs
    rw [ModifyInfoControl.modify, ModifyInfoControl.modifyNickName, hid, Program.ret_bind, hs,
      Program.ret_bind]
    rfl
  | VideoProfile =>
    cases hk
    have hid : Handler.str jsonMsg "videoId" = Program.ret id := Handler.str_eq hid
    have hs : Handler.str jsonMsg "newProfile" = Program.ret s := Handler.str_eq hs
    rw [ModifyInfoControl.modify, ModifyInfoControl.modifyProfile, hid, Program.ret_bind, hs,
      Program.ret_bind]
    rfl
  | _ => cases hk

theorem Rename.index_lt (k : Rename) : 0 < k.index ∧ k.index < k.table.columns.length := by
  cases k <;> decide

/-- The tables have their columns after a rename. -/
theorem Rename.shaped_after (ht : t.Shaped) :
    (t.apply k.table (.update fun row => k.after s id row.cells)).Shaped := by
  intro table cells hcells
  by_cases htable : table = k.table
  · subst htable
    have hupdate := Tables.cells_update t k.table (k.after s id)
    rw [changeOf] at hupdate
    rw [hupdate] at hcells
    obtain ⟨cells', hcells', rfl⟩ := List.mem_map.mp hcells
    rw [← ht k.table cells' hcells', Rename.after]
    split
    · exact List.length_set
    · rfl
  · rw [Tables.cells_apply_ne htable] at hcells
    exact ht table cells hcells

/-- What the statement changes, with the text `w` that it is read with, is what it is to change: the
text has been read as it is, and only rows with the id or with the text have been met. -/
theorem Rename.exact_of_apply {w : String} (hid : equals id id = true) (ht : t.Shaped)
    (haddressed : ∃ cells ∈ t.cells k.table, cells.getD 0 "" = id)
    (h : ∀ cells ∈ t.cells k.table,
      (if meets equals [(0, id)] cells then cells.set k.index w else cells) = k.after s id cells) :
    w = s ∧ k.Exact equals s id t := by
  have hset : ∀ cells ∈ t.cells k.table, ∀ s' : String, (cells.set k.index s').getD k.index "" =
      s' := by
    intro cells hcells s'
    have hlt : k.index < cells.length := by
      rw [ht k.table cells hcells]
      exact k.index_lt.2
    simp [hlt]
  have hw : w = s := by
    obtain ⟨cells, hcells, hcell⟩ := haddressed
    have hcells' := h cells hcells
    rw [if_pos (by rw [meets_singleton, hcell, hid]), Rename.after, if_pos hcell] at hcells'
    rw [← hset cells hcells w, hcells', hset cells hcells s]
  refine ⟨hw, fun cells hcells hequal => or_iff_not_imp_left.mpr fun hne => ?_⟩
  have hcells' := h cells hcells
  rw [if_pos (by rw [meets_singleton, hequal]), Rename.after, if_neg hne, hw] at hcells'
  rw [← hcells', hset cells hcells s]

/-- The statement changes what it is to change. -/
theorem Rename.set_eq_after (hid : equals id id = true) (hexact : k.Exact equals s id t) :
    ∀ cells ∈ t.cells k.table,
      (if meets equals [(0, id)] cells then cells.set k.index s else cells) =
      k.after s id cells := by
  intro cells hcells
  rw [meets_singleton, Rename.after]
  by_cases hcell : cells.getD 0 "" = id
  · rw [if_pos hcell, if_pos (by rw [hcell, hid])]
  · rw [if_neg hcell]
    split
    · rename_i hequal
      have hs := (hexact cells hcells hequal).resolve_left hcell
      rw [← hs, List.getD_eq_getElem?_getD]
      rcases lt_or_ge k.index cells.length with hlt | hge
      · rw [List.getElem?_eq_getElem hlt, Option.getD_some, List.set_getElem_self]
      · exact List.set_eq_of_length_le hge
    · rfl

/-- An id does not change. -/
theorem Rename.after_id (cells : Cells) : (k.after s id cells).getD 0 "" = cells.getD 0 "" := by
  have hne : k.index ≠ 0 := k.index_lt.1.ne'
  rw [Rename.after]
  split
  · rw [List.getD_eq_getElem?_getD, List.getElem?_set_ne hne, ← List.getD_eq_getElem?_getD]
  · rfl

/-- A row that is met has the text afterwards. -/
theorem Rename.after_text {cells : Cells} (hlt : k.index < cells.length)
    (h : cells.getD 0 "" = id ∨ cells.getD k.index "" = s) :
    (k.after s id cells).getD k.index "" = s := by
  rw [Rename.after]
  split
  · simp [hlt]
  · rename_i hne
    exact h.resolve_left hne

/-- The rows with the id, and the rows that are found by it, have the text afterwards. -/
theorem Rename.text_of_mem (ht : t.Shaped) (hexact : k.Exact equals s id t) {cells : Cells}
    (h : cells ∈ (t.apply k.table (.update fun row => k.after s id row.cells)).cells k.table)
    (hequal : equals (cells.getD 0 "") id = true) : cells.getD k.index "" = s := by
  have hupdate := Tables.cells_update t k.table (k.after s id)
  rw [changeOf] at hupdate
  rw [hupdate] at h
  obtain ⟨cells, hcells, rfl⟩ := List.mem_map.mp h
  rw [Rename.after_id] at hequal
  refine Rename.after_text ?_ (hexact cells hcells hequal)
  rw [ht k.table cells hcells]
  exact k.index_lt.2

section Told

variable {H : Type} {db : Database H} {now : H → String} {m : Meeting H} {ask : List UInt8}
  {offset num : ℕ}

/-- **The nickname of the user is told**, if it fits. -/
theorem replies_newNickName (server : Server) (hdb : db.Obeys now equals)
    (hup : db.Up now equals m.db) (hid : IsNumber id) (hequal : equals id id = true) (ht : t.Shaped)
    (haddressed : ∃ cells ∈ t.cells .User, cells.getD 0 "" = id)
    (hexact : Rename.NickName.Exact equals s id t) (hask : nickNameQuery lib ask = some id) :
    db.replies m (SendInfoControl.send_info lib server ask)
        (t.apply .User (.update fun row => Rename.NickName.after s id row.cells)) =
      if NetPacketGenerator.fits lib (nickNameMessage id s) then [⟨.GetInfo, nickNameMessage id s⟩]
      else [] := by
  have hupdate := Tables.cells_update t .User (Rename.NickName.after s id)
  rw [changeOf] at hupdate
  refine replies_nickName server hdb hup hask hid ?_ fun cells hcells hequal => ?_
  · obtain ⟨cells, hcells, hcell⟩ := haddressed
    refine ⟨_, hupdate ▸ List.mem_map_of_mem hcells, ?_⟩
    rw [Rename.after_id, hcell, hequal]
  · exact Rename.text_of_mem ht hexact hcells hequal

/-- Whoever asks for the text is told it, if the reply fits. -/
theorem Rename.told (hlib : lib.Writes) (hdb : db.Obeys now equals) (hup : db.Up now equals m.db)
    (hid : IsNumber id) (hequal : equals id id = true) (ht : t.Shaped)
    (haddressed : ∃ cells ∈ t.cells k.table, cells.getD 0 "" = id) (hexact : k.Exact equals s id t)
    (hask : k.Asked lib ask id offset num)
    (hroom : k.Room server s id offset num
      (t.apply k.table (.update fun row => k.after s id row.cells))) :
    k.Told server s id offset num (t.apply k.table (.update fun row => k.after s id row.cells))
      (db.replies m (SendInfoControl.send_info lib server ask)
        (t.apply k.table (.update fun row => k.after s id row.cells))) := by
  cases k with
  | NickName =>
    exact (replies_newNickName server hdb hup hid hequal ht haddressed hexact hask).trans
      (if_pos ((fits_iff hlib (hasLength_nickNameMessage id s)).mpr hroom))
  | VideoProfile =>
    obtain ⟨all, hall, hreplies⟩ := replies_vod server hdb hup (Rename.shaped_after ht) hask
    refine ⟨all, hall, fun cells hcells hcell => ?_,
      hreplies.trans
        (if_pos ((fits_iff hlib (hasLength_vodMessage server _)).mpr (hroom all hall)))⟩
    exact Rename.text_of_mem ht hexact (hall.mem_iff.mp hcells) (by rw [hcell, hequal])

/-- If whoever asks for the text is told it, whatever the database, the reply fits. -/
theorem Rename.room_of_told (hlib : lib.Writes) (hid : IsNumber id) (hequal : equals id id = true)
    (ht : t.Shaped) (haddressed : ∃ cells ∈ t.cells k.table, cells.getD 0 "" = id)
    (hexact : k.Exact equals s id t) (hask : k.Asked lib ask id offset num) (moment : Moment)
    (hmoment : moment.up = true)
    (htold : ∀ db : Database Moment, db.Obeys Moment.now equals → db.Up Moment.now equals moment →
      k.Told server s id offset num (t.apply k.table (.update fun row => k.after s id row.cells))
        (db.replies (calm moment) (SendInfoControl.send_info lib server ask)
          (t.apply k.table (.update fun row => k.after s id row.cells)))) :
    k.Room server s id offset num
      (t.apply k.table (.update fun row => k.after s id row.cells)) := by
  cases k with
  | NickName =>
    have hup : (mysqlWith equals).Up Moment.now equals (calm moment).db := mysql_up hmoment
    have hreplies :=
      replies_newNickName server (mysqlWith_obeys equals) hup hid hequal ht haddressed hexact hask
    have hfits := (sent_eq (hreplies.symm.trans (htold _ (mysqlWith_obeys equals) hup))).1
    exact (fits_iff hlib (hasLength_nickNameMessage id s)).mp hfits
  | VideoProfile =>
    intro all hall
    -- a database that finds the videos in this order
    let rows : List Row :=
      ((all.drop offset).take num).map fun cells => { number := 0, cells := cells }
    have hrows : rows.map Row.cells = (all.drop offset).take num := by
      rw [List.map_map]
      exact List.map_id _
    let text := (Control.Command.selectVideos offset num).text
    let videos :=
      (t.apply .Video (.update fun row => Rename.VideoProfile.after s id row.cells)).cells .Video
    have hobeys : ((mysqlWith equals).answering text videos rows).Obeys Moment.now equals :=
      (mysqlWith_obeys equals).answering hall hrows
    have hup : ((mysqlWith equals).answering text videos rows).Up Moment.now equals moment :=
      (mysql_up hmoment).answering text
    have hcells : ∀ cells ∈ rows.map Row.cells, cells.length = 6 := by
      intro cells hcells
      rw [hrows] at hcells
      exact Rename.shaped_after ht .Video cells
        (hall.mem_iff.mp (List.mem_of_mem_drop (List.mem_of_mem_take hcells)))
    have hstore : ((mysqlWith equals).answering text videos rows).store
        (t.apply .Video (.update fun row => Rename.VideoProfile.after s id row.cells))
        (calm moment).db text = some rows :=
      if_pos ⟨rfl, rfl⟩
    have hreplies := replies_vodList server hask hstore hcells
    obtain ⟨_, -, -, hsent⟩ := htold _ hobeys hup
    have hfits := (sent_eq (hreplies.symm.trans hsent)).1
    rw [hrows] at hfits
    exact (fits_iff hlib (hasLength_vodMessage server _)).mp hfits

end Told

/-- **When nicknames and profiles survive**: when the text is a literal, the id is the only one in
the table that is taken to be equal to it, and the reply fits into a packet. -/
theorem renameSurvives_iff (hlib : lib.Writes) (hequals : ∀ v, IsNumber v → equals v v = true)
    (hbuf : renameOf lib buf = some (k, s, id)) {ask : List UInt8} {offset num : ℕ}
    (hask : k.Asked lib ask id offset num) (hid : IsNumber id) (hlen : s.length ≤ k.room)
    (time : String) (ht : t.Shaped) (haddressed : ∃ cells ∈ t.cells k.table, cells.getD 0 "" = id) :
    RenameSurvives lib server equals buf ask k s id offset num time t ↔ Literal s.toList ∧
      k.Exact equals s id t ∧
      k.Room server s id offset num
      (t.apply k.table (.update fun row => k.after s id row.cells)) := by
  have hequal : equals id id = true := hequals id hid
  have hhandle : ∀ {H : Type} (db : Database H) (m : Meeting H),
      db.handle m (ModifyInfoControl.modify_info lib server buf) t =
        ([⟨.query_execute (k.command s id), (db.perform t (.query_execute (k.command s id)) m).2⟩],
          (db.perform t (.query_execute (k.command s id)) m).1) := by
    intro H db m
    rw [modify_info_rename hbuf, handle_statement]
  constructor
  · intro h
    obtain ⟨hstored, -⟩ :=
      h Moment (mysqlWith equals) Moment.now (mysqlWith_obeys equals) (calm ⟨true, time⟩)
      (mysql_up rfl) rfl
    rw [hhandle (mysqlWith equals) _, Prod.mk.injEq] at hstored
    obtain ⟨hlog, htables⟩ := hstored
    have hok :
        ((mysqlWith equals).perform t (.query_execute (k.command s id)) (calm ⟨true, time⟩)).2 =
          true := by
      simpa using hlog
    obtain ⟨c, name, edit, hparse, hedit, happly⟩ :=
      mysql_perform changes_rename (Prod.ext htables hok)
    obtain ⟨w, rfl, hle, hliteral⟩ := update_of_rename hid hparse
    rw [edit_rename (hle.trans hlen)] at hedit
    cases hedit
    obtain ⟨hw, hexact⟩ :=
      Rename.exact_of_apply hequal ht haddressed (Tables.apply_update_eq_iff.mp happly.symm)
    refine ⟨hliteral hw, hexact, ?_⟩
    refine Rename.room_of_told hlib hid hequal ht haddressed hexact hask ⟨true, time⟩ rfl
      fun db hdb hup => ?_
    exact (h Moment db Moment.now hdb (calm ⟨true, time⟩) hup rfl).2 (calm ⟨true, time⟩) hup
  · rintro ⟨hs, hexact, hroom⟩ H db now hdb m hup -
    have hperform :=
      hdb.perform_up (t := t) hup changes_rename (parse_rename hs hid) (edit_rename hlen equals _)
    have hafter := Tables.apply_update_eq_iff.mpr (Rename.set_eq_after hequal hexact)
    refine ⟨?_, fun m' hup' => Rename.told hlib hdb hup' hid hequal ht haddressed hexact hask hroom⟩
    rw [hhandle db m, hperform, changeOf, hafter]

end Renames

/-! ### All texts -/

/-- **When texts survive**: comments and messages when they are literals; nicknames and profiles
when they are, and no other id is taken to be equal to the id, but for rows with the text already;
and the replies that are to tell them have to fit into a packet. -/
theorem survives_iff (lib : Nlohmann) (hlib : lib.Writes) (server : Server)
    (equals : String → String → Bool) (hequals : ∀ v, IsNumber v → equals v v = true) (t : Tables)
    (ht : t.Shaped) (time : String) :
    (∀ buf ask c n, commentOf lib buf = some c → commentQuery lib ask = some c.videoId → c.Fits →
      (toString n).length ≤ 30 →
        (CommentSurvives lib server equals buf ask c n time t ↔ Literal c.content.toList ∧
          commentsLength
          (commentsOf equals c.videoId (t.apply .Comment (.insert [c.cells (toString n) time]))) <
            BUF_SIZE)) ∧
    (∀ buf ask c, saidOf lib buf = some c →
      messageQuery lib ask = some (c.sendId, c.receiveId) ∨
      messageQuery lib ask = some (c.receiveId, c.sendId) →
      c.Fits →
        (MessageSurvives lib server equals buf ask c time t ↔ Literal c.message.toList ∧
          messagesLength
          (messagesOf equals c.sendId c.receiveId (t.apply .Message (.insert [c.cells time]))) <
            BUF_SIZE)) ∧
    (∀ buf ask k s id offset num, renameOf lib buf = some (k, s, id) →
      k.Asked lib ask id offset num → IsNumber id →
      s.length ≤ k.room → (∃ cells ∈ t.cells k.table, cells.getD 0 "" = id) →
        (RenameSurvives lib server equals buf ask k s id offset num time t ↔
          Literal s.toList ∧ k.Exact equals s id t ∧
            k.Room server s id offset num
            (t.apply k.table (.update fun row => k.after s id row.cells)))) :=
  ⟨fun _ _ _ _ hbuf hask hfits hn => commentSurvives_iff hlib hequals hbuf hask hfits hn time ht,
    fun _ _ _ hbuf hask hfits => messageSurvives_iff hlib hequals hbuf hask hfits time ht,
    fun _ _ _ _ _ _ _ hbuf hask hid hlen haddressed =>
      renameSurvives_iff hlib hequals hbuf hask hid hlen time ht haddressed⟩

namespace Quotes

/-- User `7` comments on video `5`. -/
def comment : List UInt8 :=
  ("\x7b\"infotype\":0,\"replyCommentId\":\"\",\"publisherId\":\"7\",\"videoId\":\"5\"," ++
    "\"content\":\"it's\"\x7d").toUTF8.toList

/-- User `7` writes to user `8`. -/
def message : List UInt8 :=
  "\x7b\"messagetype\":2,\"sendId\":\"7\",\"receiveId\":\"8\",\"content\":\"100%\"\x7d".toUTF8.toList

/-- User `7` gets a nickname. -/
def nickName : List UInt8 :=
  "\x7b\"infotype\":8,\"userId\":\"7\",\"newNickName\":\"1\\\\2\"\x7d".toUTF8.toList

/-- Later requests for what has been sent. -/
def askComments : List UInt8 := "\x7b\"infotype\":0,\"id\":\"5\"\x7d".toUTF8.toList

def askMessages : List UInt8 :=
  "\x7b\"infotype\":12,\"userId1\":\"8\",\"userId2\":\"7\"\x7d".toUTF8.toList

def askNickName : List UInt8 := "\x7b\"infotype\":8,\"userId\":\"7\"\x7d".toUTF8.toList

/-- The library, on the requests of this example. -/
def nlohmann : Nlohmann where
  parse bytes :=
    if bytes = comment then
      some (.obj [("infotype", .int 0), ("replyCommentId", .str ""), ("publisherId", .str "7"),
        ("videoId", .str "5"), ("content", .str "it's")])
    else if bytes = message then
      some (.obj [("messagetype", .int 2), ("sendId", .str "7"), ("receiveId", .str "8"),
        ("content", .str "100%")])
    else if bytes = nickName then
      some (.obj [("infotype", .int 8), ("userId", .str "7"), ("newNickName", .str "1\\2")])
    else if bytes = askComments then some (.obj [("infotype", .int 0), ("id", .str "5")])
    else if bytes = askMessages then
      some (.obj [("infotype", .int 12), ("userId1", .str "8"), ("userId2", .str "7")])
    else if bytes = askNickName then some (.obj [("infotype", .int 8), ("userId", .str "7")])
    else none
  dump := Json.text

/-- One user. -/
def tables : Tables := initDataBase.apply .User (.insert [["7", "secret", "seven", "NULL"]])

/-- When the requests are made. -/
def time : String := "2025-01-01 00:00:00"

/-- What requests meet. -/
def now : Meeting Moment := given 1 time

/-- The database of this example, which compares ids as doubles. -/
abbrev mysqld : Database Moment := mysqlWith equalDoubles

theorem shaped : tables.Shaped := by
  intro table cells hcells
  cases table with
  | User =>
    have hcells : cells ∈ [["7", "secret", "seven", "NULL"]] := hcells
    rw [List.mem_singleton.mp hcells]
    rfl
  | _ => cases hcells

/-- **A comment with a quote is not stored, and of a nickname with a backslash another is.** -/
theorem texts_lost :
    (mysqld.handle now (ModifyInfoControl.modify_info nlohmann .boost comment) tables).2.cells
      .Comment = [] ∧
    (mysqld.handle now (ModifyInfoControl.modify_info nlohmann .boost nickName) tables).2.cells
      .User =
      [["7", "secret", "12", "NULL"]] ∧
    ¬ CommentSurvives nlohmann .boost equalDoubles comment askComments ⟨"", "7", "5", "it's"⟩ 1
      time tables ∧
    ¬ RenameSurvives nlohmann .boost equalDoubles nickName askNickName .NickName "1\\2" "7" 0 0 time
      tables := by
  have hcomment :
      (mysqld.handle now (ModifyInfoControl.modify_info nlohmann .boost comment) tables).2.cells
        .Comment = [] := by
    decide +kernel
  have hnickName :
      (mysqld.handle now (ModifyInfoControl.modify_info nlohmann .boost nickName) tables).2.cells
        .User = [["7", "secret", "12", "NULL"]] := by
    decide +kernel
  refine ⟨hcomment, hnickName, fun h => ?_, fun h => ?_⟩
  · obtain ⟨hstored, -⟩ := h Moment mysqld Moment.now (mysqlWith_obeys _) now (mysql_up rfl) rfl rfl
    rw [hstored] at hcomment
    revert hcomment
    decide +kernel
  · obtain ⟨hstored, -⟩ := h Moment mysqld Moment.now (mysqlWith_obeys _) now (mysql_up rfl) rfl
    rw [hstored] at hnickName
    revert hnickName
    decide +kernel

/-- The message survives, the comment and the nickname do not. -/
theorem survives_iff_quotes :
    ¬ CommentSurvives nlohmann .boost equalDoubles comment askComments ⟨"", "7", "5", "it's"⟩ 1
      time tables ∧
    MessageSurvives nlohmann .boost equalDoubles message askMessages ⟨"7", "8", .Characters, "100%"⟩
      time tables ∧
    ¬ RenameSurvives nlohmann .boost equalDoubles nickName askNickName .NickName "1\\2" "7" 0 0 time
      tables := by
  obtain ⟨hcomments, hmessages, hrenames⟩ :=
    survives_iff nlohmann (fun _ _ _ => rfl) .boost equalDoubles
    (fun _ => equalDoubles_self) tables shaped time
  have h7 : IsNumber "7" := isNumber_iff.mp rfl
  refine ⟨?_, ?_, ?_⟩
  · rw [hcomments comment askComments ⟨"", "7", "5", "it's"⟩ 1 (by decide +kernel)
      (by decide +kernel)
      ⟨⟨by decide, by decide⟩, ⟨by decide, by decide⟩, ⟨isNumber_iff.mp rfl, by decide⟩, by decide⟩
        (by decide)]
    exact fun h => absurd h.1 (by decide)
  · rw [hmessages message askMessages ⟨"7", "8", .Characters, "100%"⟩ (by decide +kernel)
      (.inr (by decide +kernel))
      ⟨⟨h7, by decide⟩, ⟨isNumber_iff.mp rfl, by decide⟩, by decide⟩]
    exact ⟨by decide, by decide +kernel⟩
  · rw [hrenames nickName askNickName .NickName "1\\2" "7" 0 0 (by decide +kernel)
      (show nickNameQuery nlohmann askNickName = some "7" by decide +kernel) h7 (by decide)
      ⟨_, List.mem_singleton_self _, rfl⟩]
    exact fun h => absurd h.1 (by decide)

end Quotes

end PickUpLight.Store
