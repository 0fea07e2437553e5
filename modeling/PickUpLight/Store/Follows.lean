import Mathlib.Data.List.Count
import PickUpLight.Control.JsonText
import PickUpLight.Store.Toggles

/-!
# Follows and likes of comments

Whether the pairs in `Follow` and `CommentLike` are sets: a pair is there once when the last request
about it has entered it, and not at all when it has taken it back. A follow that is repeated is
there twice, and is listed twice; a like of a comment is never taken back.
-/

namespace PickUpLight.Store

open PickUpLight.Theory PickUpLight.Control PickUpLight.Wire PickUpLight.Sql

/-! ### Lists of users -/

/-- The two lists of a user. -/
inductive Listing where
  /-- The users a follower follows. -/
  | Follow
  /-- The followers of a user. -/
  | Fans
  deriving DecidableEq, Repr

namespace Listing

def ofInfo : InfoType → Option Listing
  | .Follow => some Follow
  | .Fans => some Fans
  | _ => none

def command : Listing → String → Control.Command
  | Follow => .selectFollows
  | Fans => .selectFans

/-- The user a pair is looked for by. -/
def key : Listing → String × String → String
  | Follow => Prod.snd
  | Fans => Prod.fst

/-- The user of a pair that is listed. -/
def listed : Listing → String × String → String
  | Follow => Prod.fst
  | Fans => Prod.snd

/-- The pair of a user that is listed for another. -/
def pair : Listing → String → String → String × String
  | Follow, u, x => (u, x)
  | Fans, u, x => (x, u)

/-- The message that lists some users. -/
def message : Listing → List String → Json
  | Follow, users =>
    NetPacketGenerator.info .Follow "followInfo"
      (listOf (users.map fun u => Json.null.set "userId" (.str u)))
  | Fans, users =>
    NetPacketGenerator.info .Fans "fansInfo"
      (listOf (users.map fun u => Json.null.set "followerId" (.str u)))

/-- How long it is. -/
def length : Listing → List String → ℕ
  | Follow, users =>
    infoLength .Follow "followInfo"
      (listLength (users.map fun u => objLength [("userId", strLength u)]))
  | Fans, users =>
    infoLength .Fans "fansInfo"
      (listLength (users.map fun u => objLength [("followerId", strLength u)]))

variable {l : Listing} {users users' : List String}

theorem hasLength_message (l : Listing) (users : List String) :
    HasLength (l.message users) (l.length users) := by
  have hone : ∀ key u, HasLength (Json.null.set key (.str u)) (objLength [(key, strLength u)]) :=
    fun key u => hasLength_obj (show [key].Nodup from List.nodup_singleton _)
      (.cons ⟨rfl, hasLength_str u⟩ .nil)
  cases l with
  | Follow => exact hasLength_info _ (by decide) (hasLength_map (hone "userId") users)
  | Fans => exact hasLength_info _ (by decide) (hasLength_map (hone "followerId") users)

theorem length_perm (h : users.Perm users') : l.length users = l.length users' := by
  cases l with
  | Follow => exact congrArg (infoLength .Follow "followInfo") (listLength_perm (h.map _))
  | Fans => exact congrArg (infoLength .Fans "fansInfo") (listLength_perm (h.map _))

/-- A message lists one list of users. -/
theorem eq_of_message_eq (h : l.message users = l.message users') : users = users' := by
  have hkey : ∀ key, Function.Injective fun u : String => Json.null.set key (.str u) := by
    intro key u v h
    simpa [Json.set] using h
  cases l with
  | Follow => exact (hkey "userId").list_map (listOf_injective (info_injective (by decide) h))
  | Fans => exact (hkey "followerId").list_map (listOf_injective (info_injective (by decide) h))

end Listing

section Queries

variable {x : String} (t : Tables) (equals : String → String → Bool)

theorem parse_selectFollows (hx : IsNumber x) : parse (Control.Command.selectFollows x).text =
    some (.query (.rows (some ["userId"]) ⟨"Follow", [⟨"followerId", x⟩]⟩ none none)) :=
  parse_template_number (.code rfl) hx rfl

theorem parse_selectFans (hx : IsNumber x) : parse (Control.Command.selectFans x).text =
    some (.query (.rows (some ["followerId"]) ⟨"Follow", [⟨"userId", x⟩]⟩ none none)) :=
  parse_template_number (.code rfl) hx rfl

theorem answers_selectFollows :
    (Query.rows (some ["userId"]) ⟨"Follow", [⟨"followerId", x⟩]⟩ none none).answers schema
      equals t.contents =
      .does fun answer => ∃ all : List Cells,
      all.Perm ((t.cells .Follow).filter (meets equals [(1, x)])) ∧
        True ∧ answer = all.map fun cells => [cells.getD 0 ""] := rfl

theorem answers_selectFans :
    (Query.rows (some ["followerId"]) ⟨"Follow", [⟨"userId", x⟩]⟩ none none).answers schema
      equals t.contents =
      .does fun answer => ∃ all : List Cells,
      all.Perm ((t.cells .Follow).filter (meets equals [(0, x)])) ∧
        True ∧ answer = all.map fun cells => [cells.getD 1 ""] := rfl

end Queries

/-- The users a list is of, after some requests. -/
def related (l : Listing) (x : String) (gs : List Toggle) : List String :=
  ((entered .Follow gs).filter fun p => l.key p = x).map l.listed

/-- The list a request asks for, and whose. -/
def listingOf (lib : Nlohmann) (buf : List UInt8) : Option (Listing × String) :=
  (lib.parse buf).bind fun jsonMsg => (jsonMsg.enum "infotype").bind fun code =>
    (InfoType.ofCode code).bind fun infotype => (Listing.ofInfo infotype).bind fun l =>
      (jsonMsg.string "userId").map fun userId => (l, userId)

variable {lib : Nlohmann} {server : Server} {buf : List UInt8} {l : Listing} {x u : String}
  {gs : List Toggle}

/-- How often a user is listed. -/
theorem count_related : (related l x gs).count u = (entered .Follow gs).count (l.pair u x) := by
  rw [related, List.count, List.countP_map, List.countP_filter, List.count]
  apply List.countP_congr
  intro p _
  have hpair : p = l.pair u x ↔ l.listed p = u ∧ l.key p = x := by
    cases l with
    | Follow => exact Prod.ext_iff
    | Fans => exact Prod.ext_iff.trans and_comm
  rw [Function.comp_apply, Bool.and_eq_true, beq_iff_eq, decide_eq_true_iff, beq_iff_eq]
  exact hpair.symm

section Replies

variable {H : Type} {db : Database H} {now : H → String} {equals : String → String → Bool}
  {t : Tables} {m : Meeting H}

/-- The rows of an answer are of one cell each. -/
theorem replies_column {command : Control.Command} {packet : Json → Handler NetPacket}
    {message : Json → Json} {key : String} {users : List String} {rows : List Row}
    (hpacket : ∀ j, packet j = NetPacketGenerator.packet lib .GetInfo (message j))
    (hrows : db.store t m.db command.text = some rows)
    (husers : rows.map Row.cells = users.map fun u => [u]) :
    db.replies m
      (SendInfoControl.sendList server command (SendInfoControl.toJson [(key, 0)]) packet) t =
      if NetPacketGenerator.fits lib
      (message (listOf (users.map fun u => Json.null.set key (.str u)))) then
        [⟨.GetInfo, message (listOf (users.map fun u => Json.null.set key (.str u)))⟩]
      else [] := by
  have hkeys : ([(key, 0)].map Prod.fst).Nodup := List.nodup_singleton key
  rw [replies_toJson (List.cons_ne_nil _ _) hkeys hpacket hrows, husers, List.map_map]
  · rfl
  · rw [husers]
    intro cells hcells column hcolumn
    obtain ⟨u, -, rfl⟩ := List.mem_map.mp hcells
    rw [List.mem_singleton.mp hcolumn]
    exact Nat.zero_lt_one

/-- **The users that are listed**: those of the pairs that are found. -/
theorem replies_listing (server : Server) (hdb : db.Follows now equals) (ht : Holds t gs)
    (hplain : ∀ g ∈ gs, g.Plain) (hbuf : listingOf lib buf = some (l, x)) (hx : Canonical x)
    {rows : List Row} (hrows : db.store t m.db (l.command x).text = some rows) :
    ∃ users : List String, users.Perm (related l x gs) ∧
      db.replies m (SendInfoControl.send_info lib server buf) t =
        if NetPacketGenerator.fits lib (l.message users) then [⟨.GetInfo, l.message users⟩] else
        [] := by
  simp only [listingOf, Option.bind_eq_some_iff, Option.map_eq_some_iff, Prod.mk.injEq] at hbuf
  obtain ⟨jsonMsg, hparse, code, hcode, infotype, hinfo, l', hl, userId, hu, rfl, rfl⟩ := hbuf
  have hcells : t.cells .Follow = (entered .Follow gs).map cellsOf := ht .Follow
  simp only [SendInfoControl.send_info, hparse, hcode, hinfo, Program.ofOption_some,
    Program.ret_bind]
  cases infotype with
  | Follow =>
    cases hl
    obtain ⟨all, hall, -, hanswer⟩ :=
      hdb.query (parse_selectFollows hx.isNumber) (answers_selectFollows t equals) hrows
    have hfound : (t.cells .Follow).filter (meets equals [(1, userId)]) =
        ((entered .Follow gs).filter fun p => p.2 = userId).map cellsOf := by
      rw [hcells, List.filter_map]
      congr 1
      apply List.filter_congr
      intro p hp
      exact meets_snd hdb.numeric (canonical_of_entered hplain hp).2 hx
    refine ⟨all.map fun cells => cells.getD 0 "", ?_, ?_⟩
    · rw [hfound] at hall
      have hperm := hall.map fun cells : Cells => cells.getD 0 ""
      rwa [List.map_map] at hperm
    · simp only [SendInfoControl.answer, Handler.str_eq hu, Program.ret_bind]
      exact replies_column (fun _ => rfl) hrows (by rw [hanswer, List.map_map]; rfl)
  | Fans =>
    cases hl
    obtain ⟨all, hall, -, hanswer⟩ :=
      hdb.query (parse_selectFans hx.isNumber) (answers_selectFans t equals) hrows
    have hfound : (t.cells .Follow).filter (meets equals [(0, userId)]) =
        ((entered .Follow gs).filter fun p => p.1 = userId).map cellsOf := by
      rw [hcells, List.filter_map]
      congr 1
      apply List.filter_congr
      intro p hp
      exact meets_fst hdb.numeric (canonical_of_entered hplain hp).1 hx
    refine ⟨all.map fun cells => cells.getD 1 "", ?_, ?_⟩
    · rw [hfound] at hall
      have hperm := hall.map fun cells : Cells => cells.getD 1 ""
      rwa [List.map_map] at hperm
    · simp only [SendInfoControl.answer, Handler.str_eq hu, Program.ret_bind]
      exact replies_column (fun _ => rfl) hrows (by rw [hanswer, List.map_map]; rfl)
  | _ => cases hl

/-- **When follows and likes of comments behave as sets**: a pair is in `Follow` as the last request
about it says when it has not been entered twice since it was last taken back, and the users in a
list are told once each when this holds of all their pairs and the list fits into a packet; a pair
is in `CommentLike` so when it was never entered, or once and never taken back since. -/
theorem as_sets_iff (hlib : lib.Writes) (hdb : db.Follows now equals)
    {requests : List (List UInt8 × Meeting H)}
    (hgs : requests.map (fun request => toggleOf lib request.1) = gs.map some)
    (hplain : ∀ g ∈ gs, g.Plain)
    (hok : (db.serving (ModifyInfoControl.modify_info lib server)).Guarded
      (db.Succeeds (ModifyInfoControl.modify_info lib server) NoSuchColumn) initDataBase requests)
    (hrun : (db.serving (ModifyInfoControl.modify_info lib server)).exec initDataBase requests =
      some t) :
    (∀ p, (t.cells .Follow).count (cellsOf p) = (if LastOn .Follow p gs then 1 else 0) ↔
      streak .Follow p gs ≤ 1) ∧
    (∀ p, (t.cells .CommentLike).count (cellsOf p) = (if LastOn .CommentLike p gs then 1 else 0) ↔
      entries .CommentLike p gs = 0 ∨ entries .CommentLike p gs = 1 ∧ LastOn .CommentLike p gs) ∧
    ∀ buf l x m, listingOf lib buf = some (l, x) → Canonical x →
      db.store t m.db (l.command x).text ≠ none →
      ((∃ users : List String,
        db.replies m (SendInfoControl.send_info lib server buf) t = [⟨.GetInfo, l.message users⟩] ∧
        ∀ u, users.count u = if LastOn .Follow (l.pair u x) gs then 1 else 0) ↔
      (∀ u, streak .Follow (l.pair u x) gs ≤ 1) ∧ l.length (related l x gs) < BUF_SIZE) := by
  have hholds := exec_toggles hdb hgs hplain hok hrun
  have hinj : Function.Injective cellsOf := by
    rintro ⟨a, b⟩ ⟨c, d⟩ h
    cases h
    rfl
  have hcount : ∀ r : Relation, ∀ p, (t.cells r.table).count (cellsOf p) =
      (entered r gs).count p := by
    intro r p
    rw [hholds r, List.count_map_of_injective _ cellsOf hinj]
  have hfollow : ∀ p, (entered .Follow gs).count p = streak .Follow p gs := fun p => count_entered
  have hstreak : ∀ p, streak .Follow p gs = (if LastOn .Follow p gs then 1 else 0) ↔
      streak .Follow p gs ≤ 1 := by
    intro p
    have hlast : LastOn .Follow p gs ↔ 0 < streak .Follow p gs := lastOn_iff
    split_ifs with h
    · have hpos := hlast.mp h
      omega
    · have hzero := mt hlast.mpr h
      omega
  refine ⟨fun p => ?_, fun p => ?_, ?_⟩
  · have hstreaks : (t.cells .Follow).count (cellsOf p) = streak .Follow p gs :=
      (hcount .Follow p).trans (hfollow p)
    rw [hstreaks]
    exact hstreak p
  · have hentries : (t.cells .CommentLike).count (cellsOf p) = entries .CommentLike p gs :=
      (hcount .CommentLike p).trans count_entered
    have hpos : LastOn .CommentLike p gs → 0 < entries .CommentLike p gs := fun h =>
      List.count_pos_iff.mpr (List.mem_of_getLast? h)
    rw [hentries]
    split_ifs with h
    · have hpos := hpos h
      simp only [h, and_true]
      omega
    · simp only [h, and_false, or_false]
  · intro buf l x m hbuf hx hstore
    obtain ⟨rows, hrows⟩ := Option.ne_none_iff_exists'.mp hstore
    obtain ⟨users, hperm, hreply⟩ := replies_listing server hdb hholds hplain hbuf hx hrows
    have hfits : NetPacketGenerator.fits lib (l.message users) = true ↔
        l.length (related l x gs) < BUF_SIZE := by
      rw [← Listing.length_perm hperm]
      exact fits_iff hlib (l.hasLength_message users)
    have honce : (∀ u, users.count u = if LastOn .Follow (l.pair u x) gs then 1 else 0) ↔
        ∀ u, streak .Follow (l.pair u x) gs ≤ 1 := by
      refine forall_congr' fun u => ?_
      rw [hperm.count_eq, count_related, hfollow]
      exact hstreak _
    rw [hreply]
    constructor
    · rintro ⟨users', hsent, hcounts⟩
      obtain ⟨hfit, heq⟩ := sent_eq hsent
      rw [← Listing.eq_of_message_eq heq] at hcounts
      exact ⟨honce.mp hcounts, hfits.mp hfit⟩
    · rintro ⟨hstreaks, hlength⟩
      exact ⟨users, if_pos (hfits.mpr hlength), honce.mpr hstreaks⟩

/-- A request whose statement cannot succeed. -/
theorem succeeds_noSuchColumn {g : Toggle} (hg : toggleOf lib buf = some g)
    (hno : NoSuchColumn g.command) :
    db.Succeeds (ModifyInfoControl.modify_info lib server) NoSuchColumn t (buf, m) := by
  rw [Database.Succeeds, modify_info_toggle hg, handle_statement]
  intro x hx _
  exact ⟨_, _, List.mem_singleton.mp hx, hno⟩

end Replies

/-! ### A follow that is repeated, and a like that is taken back -/

namespace FollowsTwice

/-- User `3` follows user `7`. -/
def follow : List UInt8 :=
  "\x7b\"infotype\":3,\"userId\":\"7\",\"followerId\":\"3\",\"ifFollow\":true\x7d".toUTF8.toList

/-- User `3` likes comment `9`. -/
def like : List UInt8 :=
  "\x7b\"infotype\":2,\"id\":\"9\",\"userId\":\"3\",\"ifLike\":true\x7d".toUTF8.toList

/-- User `3` takes it back. -/
def unlike : List UInt8 :=
  "\x7b\"infotype\":2,\"id\":\"9\",\"userId\":\"3\",\"ifLike\":false\x7d".toUTF8.toList

/-- User `7` asks for the fans. -/
def ask : List UInt8 := "\x7b\"infotype\":4,\"userId\":\"7\"\x7d".toUTF8.toList

/-- The library, on the requests of this example. -/
def nlohmann : Nlohmann where
  parse bytes :=
    if bytes = follow then
      some (.obj [("infotype", .int 3), ("userId", .str "7"), ("followerId", .str "3"),
        ("ifFollow", .bool true)])
    else if bytes = like then
      some (.obj
        [("infotype", .int 2), ("id", .str "9"), ("userId", .str "3"), ("ifLike", .bool true)])
    else if bytes = unlike then
      some (.obj
        [("infotype", .int 2), ("id", .str "9"), ("userId", .str "3"), ("ifLike", .bool false)])
    else if bytes = ask then some (.obj [("infotype", .int 4), ("userId", .str "7")])
    else none
  dump := Json.text

/-- What requests meet. -/
def now : Meeting Moment := calm { up := true, now := "2025-01-01 00:00:00" }

/-- The handler of these requests. -/
abbrev handler : List UInt8 → Handler Unit := ModifyInfoControl.modify_info nlohmann .boost

/-- The requests. -/
def requests : List (List UInt8 × Meeting Moment) :=
  [(follow, now), (follow, now), (like, now)] ++ [(unlike, now)]

def toggles : List Toggle :=
  [⟨.Follow, ("7", "3"), true⟩, ⟨.Follow, ("7", "3"), true⟩, ⟨.CommentLike, ("9", "3"), true⟩,
    ⟨.CommentLike, ("9", "3"), false⟩]

theorem toggles_eq : requests.map (fun request => toggleOf nlohmann request.1) =
      toggles.map some := by
  decide +kernel

theorem plain : ∀ g ∈ toggles, g.Plain := by
  have h7 : Canonical "7" := ⟨7, rfl⟩
  have h3 : Canonical "3" := ⟨3, rfl⟩
  have h9 : Canonical "9" := ⟨9, rfl⟩
  simp only [toggles, List.forall_mem_cons, Toggle.Plain, h7, h3, h9, and_self, List.not_mem_nil,
    false_imp_iff, implies_true]

/-- No statement of the requests fails but the last one. -/
theorem served : ∃ t, (mysql.serving handler).exec initDataBase requests = some t ∧
    (mysql.serving handler).Guarded (mysql.Succeeds handler NoSuchColumn) initDataBase
      requests := by
  have hG : (mysql.serving handler).Guarded (mysql.Smooth handler) initDataBase
      [(follow, now), (follow, now), (like, now)] := by
    decide +kernel
  have hrun :
      ((mysql.serving handler).exec initDataBase
        [(follow, now), (follow, now), (like, now)]).isSome = true := by
    decide +kernel
  obtain ⟨t, ht⟩ := Option.isSome_iff_exists.mp hrun
  refine ⟨(mysql.handle now (handler unlike) t).2, ?_, ?_⟩
  · rw [requests, Machine.exec_append, ht, Option.bind_some, Machine.exec_singleton]
    rfl
  · refine (Machine.guarded_append_iff _ ht).mpr ⟨hG.mono _ fun _ _ h => h.succeeds, ?_⟩
    rw [Machine.guarded_singleton]
    have hg : toggleOf nlohmann unlike = some ⟨.CommentLike, ("9", "3"), false⟩ := by decide +kernel
    exact succeeds_noSuchColumn hg ⟨"9", "3", rfl⟩

theorem asked : listingOf nlohmann ask = some (.Fans, "7") := by decide +kernel

/-- The query for the fans is answered. -/
theorem answered (t : Tables) : mysql.store t now.db (Listing.Fans.command "7").text ≠ none :=
  mysql_store_ne_none rfl (parse_selectFans (isNumber_iff.mp rfl))
    (answers_selectFans t equalNumbers)

/-- **A follow that is repeated is there twice, and a like that is taken back stays**; the follower
is listed twice. -/
theorem follows_twice : ∃ (t : Tables) (users : List String),
    (mysql.serving handler).exec initDataBase requests = some t ∧
    (LastOn .Follow ("7", "3") toggles ∧ (t.cells .Follow).count ["7", "3"] ≠ 1) ∧
    (¬ LastOn .CommentLike ("9", "3") toggles ∧ (t.cells .CommentLike).count ["9", "3"] ≠ 0) ∧
    mysql.replies now (SendInfoControl.send_info nlohmann .boost ask) t =
      [⟨.GetInfo, Listing.Fans.message users⟩] ∧
    users = ["3", "3"] := by
  obtain ⟨t, ht, hG⟩ := served
  have hholds := exec_toggles mysql_follows toggles_eq plain hG ht
  obtain ⟨rows, hrows⟩ := Option.ne_none_iff_exists'.mp (answered t)
  obtain ⟨users, hperm, hreply⟩ :=
    replies_listing .boost mysql_follows hholds plain asked ⟨7, rfl⟩ hrows
  have hfollow : t.cells .Follow = [["7", "3"], ["7", "3"]] := hholds .Follow
  have hlike : t.cells .CommentLike = [["9", "3"]] := hholds .CommentLike
  have husers : users = ["3", "3"] := by
    have hlisted : related Listing.Fans "7" toggles = List.replicate 2 "3" := rfl
    rw [hlisted] at hperm
    exact List.perm_replicate.mp hperm
  refine ⟨t, users, ht, ⟨by decide, ?_⟩, ⟨by decide, ?_⟩, ?_, husers⟩
  · rw [hfollow]
    decide
  · rw [hlike]
    decide
  · rw [hreply, husers]
    exact if_pos (by decide +kernel)

/-- The follows, the likes and the list are no sets. -/
theorem as_sets_iff_twice : ∃ t : Tables,
    ¬ (t.cells .Follow).count (cellsOf ("7", "3")) =
      (if LastOn .Follow ("7", "3") toggles then 1 else 0) ∧
    ¬ (t.cells .CommentLike).count (cellsOf ("9", "3")) =
      (if LastOn .CommentLike ("9", "3") toggles then 1 else 0) ∧
    ¬ ∃ users : List String,
      mysql.replies now (SendInfoControl.send_info nlohmann .boost ask) t =
      [⟨.GetInfo, Listing.Fans.message users⟩] ∧
      ∀ u, users.count u = if LastOn .Follow (Listing.Fans.pair u "7") toggles then 1 else 0 := by
  obtain ⟨t, ht, hG⟩ := served
  obtain ⟨hfollow, hlike, hlisting⟩ :=
    as_sets_iff (fun _ _ _ => rfl) mysql_follows toggles_eq plain hG ht
  refine ⟨t, ?_, ?_, ?_⟩
  · rw [hfollow]
    decide
  · rw [hlike]
    decide
  · rw [hlisting ask .Fans "7" now asked ⟨7, rfl⟩ (answered t)]
    intro h
    exact absurd (h.1 "3") (by decide)

end FollowsTwice

end PickUpLight.Store
