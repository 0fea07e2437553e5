import Mathlib
import PickUpLight.Control.JsonText
import PickUpLight.Store.Toggles

/-!
# Likes of a video

`send_info` reports how many users like a video and whether one of them does. It counts the users
in `VideoLike` once each, but takes a user to like the video when the pair is there exactly
once. A pair that was entered twice is there twice: the user is counted, and is told not to like
the video.
-/

namespace PickUpLight.Store

open PickUpLight.Theory PickUpLight.Control PickUpLight.Wire PickUpLight.Sql

/-! ### The query -/

section Query

variable {v u : String}

theorem parse_countVideoLikes (hv : IsNumber v) (hu : IsNumber u) :
    parse (Control.Command.countVideoLikes v u).text =
      some (.query (.counts "userId" ⟨"VideoLike", [⟨"videoId", v⟩]⟩ 1
        ⟨"VideoLike", [⟨"videoId", v⟩, ⟨"userId", u⟩]⟩)) :=
  parse_template_number (.number (.number (.code rfl) hv rfl rfl) hu rfl rfl) hv rfl

theorem answers_counts (t : Tables) (equals : String → String → Bool) :
    (Query.counts "userId" ⟨"VideoLike", [⟨"videoId", v⟩]⟩ 1
      ⟨"VideoLike", [⟨"videoId", v⟩, ⟨"userId", u⟩]⟩).answers schema equals t.contents =
    .does fun answer =>
      (∀ row ∈ (t.cells .VideoLike).filter (meets equals [(0, v)]), IsNumber (row.getD 1 "")) →
      answer = [[toString (((t.cells .VideoLike).filter (meets equals [(0, v)])).map
          fun row => row.getD 1 "").dedup.length,
        if ((t.cells .VideoLike).filter (meets equals [(0, v), (1, u)])).length = 1 then "1"
        else "0"]] := by
  rfl

end Query

/-! ### The reply -/

variable (lib : Nlohmann) (server : Server)

/-- The video and the user a request asks about. -/
def likeQuery (buf : List UInt8) : Option (String × String) :=
  (lib.parse buf).bind fun jsonMsg => (jsonMsg.enum "infotype").bind fun infotype =>
    if InfoType.ofCode infotype = some .VideoLike then
      (jsonMsg.string "id").bind fun videoId => (jsonMsg.string "userId").map fun userId =>
        (videoId, userId)
    else none

/-- The message of a reply. -/
def likeMessage (likeCount : ℤ) (ifLike : Bool) : Json :=
  NetPacketGenerator.info .VideoLike "likeInfo" (SendInfoControl.toJson_LikeInfo likeCount ifLike)

theorem hasLength_likeMessage {n : ℤ} (hlow : -2 ^ 31 ≤ n) (hhigh : n < 2 ^ 31) (b : Bool) :
    HasLength (likeMessage n b) (infoLength .VideoLike "likeInfo"
      (objLength [("likeCount", intLength n), ("ifLike", if b then 4 else 5)])) := by
  have hobj : HasLength (SendInfoControl.toJson_LikeInfo n b)
      (objLength [("likeCount", intLength n), ("ifLike", if b then 4 else 5)]) :=
    hasLength_obj (show ["likeCount", "ifLike"].Nodup by decide)
      (.cons ⟨rfl, hasLength_int hlow hhigh⟩ (.cons ⟨rfl, hasLength_bool b⟩ .nil))
  exact hasLength_info .VideoLike (by decide) hobj

theorem fits_likeMessage (hlib : lib.Writes) {n : ℤ} (hlow : 0 ≤ n) (hhigh : n < 2 ^ 31)
    (b : Bool) :
    NetPacketGenerator.fits lib (likeMessage n b) = true := by
  rw [fits_iff hlib (hasLength_likeMessage (by omega) hhigh b), infoLength_eq]
  have hinfo : infoLength .VideoLike "likeInfo" 0 ≤ 50 := by decide
  have hcount : intLength n ≤ 10 := intLength_le hlow hhigh
  have hkeys : (Json.dump_escaped "likeCount").length = 9 ∧
    (Json.dump_escaped "ifLike").length = 6 := by decide
  have hlike : objLength [("likeCount", intLength n), ("ifLike", if b then 4 else 5)] ≤ 50 := by
    simp only [objLength, List.map_cons, List.map_nil, List.sum_cons, List.sum_nil,
      List.length_cons, List.length_nil, hkeys.1, hkeys.2]
    split <;> omega
  exact (Nat.add_le_add hinfo hlike).trans_lt (by decide)

/-- How many users there are whose last action on a video was a like. -/
def likers (videoId : String) (gs : List Toggle) : ℕ :=
  ((gs.map fun g => g.pair.2).dedup.filter fun userId => LastOn .VideoLike
  (videoId, userId) gs).length

variable {lib server} {buf : List UInt8} {v u : String} {gs : List Toggle}

theorem send_info_like (h : likeQuery lib buf = some (v, u)) :
    SendInfoControl.send_info lib server buf =
    SendInfoControl.sendFirst server (.countVideoLikes v u) SendInfoControl.likeInfo
      (NetPacketGenerator.sendLikeInfo_P lib) := by
  simp only [likeQuery, Option.bind_eq_some_iff] at h
  obtain ⟨jsonMsg, hparse, infotype, hinfo, h⟩ := h
  split at h
  · rename_i htype
    simp only [Option.bind_eq_some_iff, Option.map_eq_some_iff, Prod.mk.injEq] at h
    obtain ⟨videoId, hv, userId, hu, rfl, rfl⟩ := h
    simp only [SendInfoControl.send_info, hparse, hinfo, Program.ofOption_some, Program.ret_bind,
      htype, SendInfoControl.answer, Handler.str_eq hv, Handler.str_eq hu]
  · cases h

/-- The counts in an answer are read as they are. -/
theorem likeInfo_eq {row : Row} {n : ℕ} {b : Bool}
    (hrow : row.cells = [toString n, if b then "1" else "0"]) :
    SendInfoControl.likeInfo row = Program.ret (SendInfoControl.toJson_LikeInfo n b) := by
  have hn : (toString n).toInt? = some (n : ℤ) := Nat.toInt?_repr n
  have hb : (if b then "1" else "0").toInt? = some (if b then (1 : ℤ) else 0) := by
    cases b
    · exact Nat.toInt?_repr 0
    · exact Nat.toInt?_repr 1
  simp only [SendInfoControl.likeInfo, Handler.cell, hrow, List.getElem?_cons_zero,
    List.getElem?_cons_succ, Program.ofOption_some, Program.ret_bind, hn, hb]
  cases b <;> rfl

/-- The users in `VideoLike`, once each, are those whose last action was a like. -/
theorem length_likers :
    (((entered .VideoLike gs).filter fun p => p.1 = v).map Prod.snd).dedup.length =
      likers v gs := by
  apply List.Perm.length_eq
  rw [List.perm_ext_iff_of_nodup (List.nodup_dedup _) ((List.nodup_dedup _).filter _)]
  intro u
  have hmem : (v, u) ∈ entered .VideoLike gs ↔ LastOn .VideoLike (v, u) gs := by
    rw [lastOn_iff, ← List.count_pos_iff, count_entered, if_neg (by decide)]
  simp only [List.mem_dedup, List.mem_map, List.mem_filter, decide_eq_true_eq]
  constructor
  · rintro ⟨⟨a, b⟩, ⟨hab, rfl⟩, rfl⟩
    obtain ⟨g, hg, habout⟩ := mem_entered hab
    rw [Toggle.about, decide_eq_true_iff] at habout
    exact ⟨⟨g, hg, by rw [habout.2]⟩, hmem.mp hab⟩
  · rintro ⟨-, hlast⟩
    exact ⟨(v, u), ⟨hmem.mpr hlast, rfl⟩, rfl⟩

section Run

variable {H : Type} {db : Database H} {now : H → String} {equals : String → String → Bool}
  {t : Tables} {m : Meeting H}

/-- **What is reported.** -/
theorem replies_like (hdb : db.Follows now equals) (ht : Holds t gs) (hplain : ∀ g ∈ gs, g.Plain)
    (hbuf : likeQuery lib buf = some (v, u)) (hv : Canonical v) (hu : Canonical u) {rows : List Row}
    (hrows : db.store t m.db (Control.Command.countVideoLikes v u).text = some rows) :
    db.replies m (SendInfoControl.send_info lib server buf) t =
      if NetPacketGenerator.fits lib
      (likeMessage (likers v gs) (streak .VideoLike (v, u) gs = 1)) then
        [⟨.GetInfo, likeMessage (likers v gs) (streak .VideoLike (v, u) gs = 1)⟩]
      else [] := by
  have hcells : t.cells .VideoLike = (entered .VideoLike gs).map cellsOf := ht .VideoLike
  have hvideo : (t.cells .VideoLike).filter (meets equals [(0, v)]) =
      ((entered .VideoLike gs).filter fun p => p.1 = v).map cellsOf := by
    rw [hcells, List.filter_map]
    congr 1
    apply List.filter_congr
    intro p hp
    exact meets_fst hdb.numeric (canonical_of_entered hplain hp).1 hv
  have hpair : (t.cells .VideoLike).filter (meets equals [(0, v), (1, u)]) =
      ((entered .VideoLike gs).filter fun p => p = (v, u)).map cellsOf := by
    rw [hcells, List.filter_map]
    congr 1
    apply List.filter_congr
    intro p hp
    exact meets_pair hdb.numeric (q := (v, u)) (canonical_of_entered hplain hp) ⟨hv, hu⟩
  have hcount : ((entered .VideoLike gs).filter fun p => p = (v, u)).length =
      streak .VideoLike (v, u) gs := by
    have hcount : (entered .VideoLike gs).count (v, u) = streak .VideoLike (v, u) gs :=
      count_entered
    rw [← hcount, ← List.countP_eq_length_filter, List.count]
    exact List.countP_congr fun p _ => by rw [decide_eq_true_iff, beq_iff_eq]
  have hanswer :=
    hdb.query (m := m) (parse_countVideoLikes hv.isNumber hu.isNumber)
      (answers_counts t equals) hrows
  have hrow := hanswer ?_
  · have hsnd : (fun row : Cells => row.getD 1 "") ∘ cellsOf = Prod.snd := rfl
    rw [hvideo, hpair, List.map_map, List.length_map, hcount, hsnd, length_likers] at hrow
    obtain ⟨row, rows', rfl⟩ : ∃ row rows', rows = row :: rows' := by
      cases rows with
      | nil => cases hrow
      | cons row rows' => exact ⟨row, rows', rfl⟩
    have hcells' : row.cells = [toString (likers v gs),
        if decide (streak .VideoLike (v, u) gs = 1) then "1" else "0"] := by
      simpa using (List.cons.inj hrow).1
    rw [send_info_like hbuf]
    exact replies_sendFirst (fun _ => rfl) hrows (likeInfo_eq hcells')
  · rw [hvideo]
    intro row hrow
    obtain ⟨p, hp, rfl⟩ := List.mem_map.mp hrow
    exact (canonical_of_entered hplain (List.mem_of_mem_filter hp)).2.isNumber

/-- **When likes are reported as they were last set**: the count always is, and whether the user
likes the video is when the user has not liked it twice since the last unlike. The reply is sent,
for it fits. -/
theorem reported_iff (hdb : db.Follows now equals) {requests : List (List UInt8 × Meeting H)}
    (hgs : requests.map (fun request => toggleOf lib request.1) = gs.map some)
    (hplain : ∀ g ∈ gs, g.Plain)
    (hok : (db.serving (ModifyInfoControl.modify_info lib server)).Guarded
      (db.Succeeds (ModifyInfoControl.modify_info lib server) NoSuchColumn) initDataBase requests)
    (hrun : (db.serving (ModifyInfoControl.modify_info lib server)).exec initDataBase requests =
      some t)
    (hbuf : likeQuery lib buf = some (v, u)) (hv : Canonical v) (hu : Canonical u)
    (hstore : db.store t m.db (Control.Command.countVideoLikes v u).text ≠ none) :
    ∃ (likeCount : ℕ) (ifLike : Bool),
      db.replies m (SendInfoControl.send_info lib server buf) t =
        (if NetPacketGenerator.fits lib (likeMessage likeCount ifLike) then
          [⟨.GetInfo, likeMessage likeCount ifLike⟩]
        else []) ∧
      (lib.Writes → likers v gs < 2 ^ 31 →
        db.replies m (SendInfoControl.send_info lib server buf) t =
        [⟨.GetInfo, likeMessage likeCount ifLike⟩]) ∧
      ((likeCount = likers v gs ∧ (ifLike = true ↔ LastOn .VideoLike (v, u) gs)) ↔
        streak .VideoLike (v, u) gs ≤ 1) := by
  obtain ⟨rows, hrows⟩ := Option.ne_none_iff_exists'.mp hstore
  have hreply : db.replies m (SendInfoControl.send_info lib server buf) t = _ :=
    replies_like hdb (exec_toggles hdb hgs hplain hok hrun) hplain hbuf hv hu hrows
  refine ⟨likers v gs, streak .VideoLike (v, u) gs = 1, hreply, fun hlib hcount => ?_, ?_⟩
  · exact hreply.trans (if_pos (fits_likeMessage lib hlib (by omega) (by omega) _))
  · rw [lastOn_iff, decide_eq_true_iff]
    omega

end Run

/-! ### A user who likes a video twice -/

namespace TwoLikes

/-- User `3` likes video `7`. -/
def like : List UInt8 :=
  "\x7b\"infotype\":1,\"id\":\"7\",\"userId\":\"3\",\"ifLike\":true\x7d".toUTF8.toList

/-- User `3` asks about video `7`. -/
def ask : List UInt8 := "\x7b\"infotype\":1,\"id\":\"7\",\"userId\":\"3\"\x7d".toUTF8.toList

/-- The library, on the requests of this example. -/
def nlohmann : Nlohmann where
  parse bytes :=
    if bytes = like then
      some (.obj
        [("infotype", .int 1), ("id", .str "7"), ("userId", .str "3"), ("ifLike", .bool true)])
    else if bytes = ask then
      some (.obj [("infotype", .int 1), ("id", .str "7"), ("userId", .str "3")])
    else none
  dump := Json.text

/-- The like, as a request. -/
def liked : Toggle := ⟨.VideoLike, ("7", "3"), true⟩

/-- What requests meet. -/
def now : Meeting Moment := calm { up := true, now := "2025-01-01 00:00:00" }

/-- The handler of these requests. -/
abbrev handler : List UInt8 → Handler Unit := ModifyInfoControl.modify_info nlohmann .boost

/-- The tables after two likes, of which no statement fails, and an answer to the query. -/
theorem two_likes : ∃ t rows, (mysql.serving handler).exec initDataBase [(like, now), (like, now)] =
      some t ∧
    (mysql.serving handler).Guarded (mysql.Succeeds handler NoSuchColumn) initDataBase
      [(like, now), (like, now)] ∧
    mysql.store t now.db (Control.Command.countVideoLikes "7" "3").text = some rows := by
  have hG :
      (mysql.serving handler).Guarded (mysql.Smooth handler) initDataBase
        [(like, now), (like, now)] := by
    decide +kernel
  have hrun : (((mysql.serving handler).exec initDataBase [(like, now), (like, now)]).bind fun t =>
      mysql.store t now.db (Control.Command.countVideoLikes "7" "3").text).isSome = true := by
    decide +kernel
  obtain ⟨rows, hrows⟩ := Option.isSome_iff_exists.mp hrun
  obtain ⟨t, ht, hrows⟩ := Option.bind_eq_some_iff.mp hrows
  exact ⟨t, rows, ht, hG.mono _ fun _ _ h => h.succeeds, hrows⟩

theorem asked : likeQuery nlohmann ask = some ("7", "3") := by decide +kernel

theorem canonical : Canonical "7" ∧ Canonical "3" := ⟨⟨7, rfl⟩, ⟨3, rfl⟩⟩

theorem toggles : [(like, now), (like, now)].map (fun request => toggleOf nlohmann request.1) =
    [liked, liked].map some := by
  decide +kernel

theorem plain : ∀ g ∈ [liked, liked], g.Plain := by
  intro g hg
  obtain rfl : g = liked := by simpa using hg
  exact canonical

/-- **A user who likes a video twice does not like it**, but is counted. -/
theorem liked_twice :
    ∃ t, (mysql.serving handler).exec initDataBase [(like, now), (like, now)] = some t ∧
    LastOn .VideoLike ("7", "3") [liked, liked] ∧
    mysql.replies now (SendInfoControl.send_info nlohmann .boost ask) t =
      [⟨.GetInfo, likeMessage 1 false⟩] := by
  obtain ⟨t, rows, ht, hG, hrows⟩ := two_likes
  refine ⟨t, ht, by decide, ?_⟩
  have hholds := exec_toggles mysql_follows toggles plain hG ht
  have hreply : mysql.replies now (SendInfoControl.send_info nlohmann .boost ask) t = _ :=
    replies_like mysql_follows hholds plain asked canonical.1 canonical.2 hrows
  have hlikers : likers "7" [liked, liked] = 1 := by decide
  have hstreak : decide (streak .VideoLike ("7", "3") [liked, liked] = 1) = false := by decide
  rw [hlikers, hstreak] at hreply
  exact hreply.trans (if_pos (by decide +kernel))

/-- It is reported otherwise than it was last set. -/
theorem reported_iff_twice : ∃ (t : Tables) (likeCount : ℕ) (ifLike : Bool),
    mysql.replies now (SendInfoControl.send_info nlohmann .boost ask) t =
      [⟨.GetInfo, likeMessage likeCount ifLike⟩] ∧
    ¬ (likeCount = likers "7" [liked, liked] ∧
      (ifLike = true ↔ LastOn .VideoLike ("7", "3") [liked, liked])) := by
  obtain ⟨t, rows, ht, hG, hrows⟩ := two_likes
  obtain ⟨likeCount, ifLike, -, hreply, hiff⟩ := reported_iff mysql_follows toggles plain hG ht
    asked canonical.1 canonical.2 (by rw [hrows]; exact Option.some_ne_none _)
  refine ⟨t, likeCount, ifLike, hreply (fun _ _ _ => rfl) (by decide), ?_⟩
  intro h
  exact absurd (hiff.mp h) (by decide)

end TwoLikes

end PickUpLight.Store
