import PickUpLight.Store.Ids
import PickUpLight.Store.Serving

/-!
# Likes and follows

`modify_info` enters a pair of ids into one of three tables (`VideoLike`, `CommentLike`, `Follow`)
and takes it back. The tables have no keys, so a pair that is entered twice is there twice. A
deletion takes back all of a pair; that from `CommentLike` names a column the table does not
have, and takes back nothing.

`entered` says what the pairs in a table are after some requests, and `exec_toggles` that they are
the rows of the table. The rest counts: a pair is there as often as it was entered since it was last
taken back (`count_entered`).
-/

namespace PickUpLight.Store

open PickUpLight.Theory PickUpLight.Control PickUpLight.Wire PickUpLight.Sql

/-! ### Requests -/

/-- The relations. -/
inductive Relation where
  | VideoLike
  | CommentLike
  | Follow
  deriving DecidableEq, Repr

namespace Relation

def ofInfo : InfoType → Option Relation
  | .VideoLike => some VideoLike
  | .CommentLike => some CommentLike
  | .Follow => some Follow
  | _ => none

/-- The members of a request: the two ids, and which it is. -/
def keys : Relation → String × String × String
  | VideoLike | CommentLike => ("id", "userId", "ifLike")
  | Follow => ("userId", "followerId", "ifFollow")

def table : Relation → Table
  | VideoLike => .VideoLike
  | CommentLike => .CommentLike
  | Follow => .Follow

def enter : Relation → String → String → Control.Command
  | VideoLike => .insertVideoLike
  | CommentLike => .insertCommentLike
  | Follow => .insertFollow

def takeBack : Relation → String → String → Control.Command
  | VideoLike => .deleteVideoLike
  | CommentLike => .deleteCommentLike
  | Follow => .deleteFollow

/-- The columns the deletion names. -/
def named : Relation → String × String
  | VideoLike | CommentLike => ("videoId", "userId")
  | Follow => ("userId", "followerId")

end Relation

/-- A request: a pair is entered, or taken back. -/
structure Toggle where
  relation : Relation
  pair : String × String
  on : Bool
  deriving DecidableEq, Repr

namespace Toggle

def command (g : Toggle) : Control.Command :=
  if g.on then g.relation.enter g.pair.1 g.pair.2 else g.relation.takeBack g.pair.1 g.pair.2

/-- The ids are canonical. -/
def Plain (g : Toggle) : Prop := Canonical g.pair.1 ∧ Canonical g.pair.2

/-- The request is about a pair. -/
def about (r : Relation) (p : String × String) (g : Toggle) : Bool := g.relation = r ∧ g.pair = p

end Toggle

variable (lib : Nlohmann)

/-- The request in a packet. -/
def toggleOf (buf : List UInt8) : Option Toggle :=
  (lib.parse buf).bind fun jsonMsg => (jsonMsg.enum "infotype").bind fun code =>
    (InfoType.ofCode code).bind fun infotype => (Relation.ofInfo infotype).bind fun r =>
      (jsonMsg.string r.keys.1).bind fun a => (jsonMsg.string r.keys.2.1).bind fun b =>
        (jsonMsg.boolean r.keys.2.2).map fun on => ⟨r, (a, b), on⟩

variable {lib} {server : Server} {buf : List UInt8} {g : Toggle}

/-- **The handler of such a request** makes one statement. -/
theorem modify_info_toggle (h : toggleOf lib buf = some g) :
    ModifyInfoControl.modify_info lib server buf =
      Handler.query_execute g.command >>= fun _ => Program.ret () := by
  simp only [toggleOf, Option.bind_eq_some_iff, Option.map_eq_some_iff] at h
  obtain ⟨jsonMsg, hparse, code, hcode, infotype, hinfo, r, hr, a, ha, b, hb, on, hon, rfl⟩ := h
  simp only [ModifyInfoControl.modify_info, hparse, hcode, hinfo, Program.ofOption_some,
    Program.ret_bind]
  have hrelation : ∀ enter takeBack, ModifyInfoControl.modifyRelation jsonMsg r.keys.1 r.keys.2.1
      r.keys.2.2 enter takeBack = Handler.query_execute (if on then enter a b else takeBack a b) >>=
        fun _ => Program.ret () := by
    intro enter takeBack
    simp only [ModifyInfoControl.modifyRelation, Handler.str_eq ha, Handler.str_eq hb,
      ModifyInfoControl.flag, hon, Program.ofOption_some, Program.ret_bind]
    cases on <;> rfl
  cases infotype <;> cases hr <;> exact hrelation _ _

/-! ### Statements -/

section Statements

variable {a b : String}

theorem parse_insertVideoLike (ha : Literal a.toList) (hb : Literal b.toList) :
    parse (Control.Command.insertVideoLike a b).text =
      some (.command (.insert "VideoLike" none [.text a, .text b])) :=
  parse_template (.literal (.literal (.code rfl) ha rfl rfl) hb rfl rfl) rfl rfl

theorem parse_insertCommentLike (ha : Literal a.toList) (hb : Literal b.toList) :
    parse (Control.Command.insertCommentLike a b).text =
      some (.command (.insert "CommentLike" none [.text a, .text b])) :=
  parse_template (.literal (.literal (.code rfl) ha rfl rfl) hb rfl rfl) rfl rfl

theorem parse_insertFollow (ha : Literal a.toList) (hb : Literal b.toList) :
    parse (Control.Command.insertFollow a b).text =
      some (.command (.insert "Follow" none [.text a, .text b])) :=
  parse_template (.literal (.literal (.code rfl) ha rfl rfl) hb rfl rfl) rfl rfl

theorem parse_deleteVideoLike (ha : IsNumber a) (hb : IsNumber b) :
    parse (Control.Command.deleteVideoLike a b).text =
      some (.command (.delete "VideoLike" [⟨"videoId", a⟩, ⟨"userId", b⟩])) :=
  parse_template_number (.number (.code rfl) ha rfl rfl) hb rfl

theorem parse_deleteCommentLike (ha : IsNumber a) (hb : IsNumber b) :
    parse (Control.Command.deleteCommentLike a b).text =
      some (.command (.delete "CommentLike" [⟨"videoId", a⟩, ⟨"userId", b⟩])) :=
  parse_template_number (.number (.code rfl) ha rfl rfl) hb rfl

theorem parse_deleteFollow (ha : IsNumber a) (hb : IsNumber b) :
    parse (Control.Command.deleteFollow a b).text =
      some (.command (.delete "Follow" [⟨"userId", a⟩, ⟨"followerId", b⟩])) :=
  parse_template_number (.number (.code rfl) ha rfl rfl) hb rfl

variable (r : Relation)

theorem parse_enter (ha : Literal a.toList) (hb : Literal b.toList) : parse (r.enter a b).text =
    some (.command (.insert r.table.name none [.text a, .text b])) := by
  cases r with
  | VideoLike => exact parse_insertVideoLike ha hb
  | CommentLike => exact parse_insertCommentLike ha hb
  | Follow => exact parse_insertFollow ha hb

theorem parse_takeBack (ha : IsNumber a) (hb : IsNumber b) : parse (r.takeBack a b).text =
    some (.command (.delete r.table.name [⟨r.named.1, a⟩, ⟨r.named.2, b⟩])) := by
  cases r with
  | VideoLike => exact parse_deleteVideoLike ha hb
  | CommentLike => exact parse_deleteCommentLike ha hb
  | Follow => exact parse_deleteFollow ha hb

theorem changes_enter : (r.enter a b).changes = some r.table := by cases r <;> rfl

theorem edit_enter (ha : IsNumber a) (hb : IsNumber b) (equals : String → String → Bool)
    (now : String) :
    (Sql.Command.insert r.table.name none [.text a, .text b]).edit schema equals now =
      if a.length ≤ 30 ∧ b.length ≤ 30 then .does (r.table.name, .insert [a, b]) else .fails := by
  have hcolumns : ∃ x y, r.table.columns = [⟨x, .varchar 30⟩, ⟨y, .varchar 30⟩] := by
    cases r <;> exact ⟨_, _, rfl⟩
  obtain ⟨x, y, hxy⟩ := hcolumns
  have hfill : fill now [(0, .text a), (1, .text b)] 0 [⟨x, .varchar 30⟩, ⟨y, .varchar 30⟩] = (do
      let cell ← Column.stores now ⟨x, .varchar 30⟩ (.text a)
      let cells ← (do
        let cell ← Column.stores now ⟨y, .varchar 30⟩ (.text b)
        pure [cell])
      pure (cell :: cells)) := rfl
  rw [stores_number ha, stores_number hb] at hfill
  simp only [Sql.Command.edit, columns_name, Outcome.does_bind, hxy]
  rw [if_pos ⟨List.nodup_range, rfl⟩]
  simp only [List.length_cons, List.length_nil, List.range, List.range.loop, List.zip_cons_cons,
    List.zip_nil_left, hfill]
  split_ifs <;> first | rfl | omega

theorem edit_deleteVideoLike (equals : String → String → Bool) (now : String) :
    (Sql.Command.delete "VideoLike" [⟨"videoId", a⟩, ⟨"userId", b⟩]).edit schema equals now =
      .does ("VideoLike", .delete (meets equals [(0, a), (1, b)])) := rfl

theorem edit_deleteFollow (equals : String → String → Bool) (now : String) :
    (Sql.Command.delete "Follow" [⟨"userId", a⟩, ⟨"followerId", b⟩]).edit schema equals now =
      .does ("Follow", .delete (meets equals [(0, a), (1, b)])) := rfl

/-- `CommentLike` has no column `videoId`. -/
theorem edit_deleteCommentLike (equals : String → String → Bool) (now : String) :
    (Sql.Command.delete "CommentLike" [⟨"videoId", a⟩, ⟨"userId", b⟩]).edit schema equals now =
      .fails := rfl

end Statements

/-! ### The pairs in a table -/

/-- What a request makes of the pairs in the table of a relation. -/
def Toggle.after (r : Relation) (ps : List (String × String)) (g : Toggle) :
    List (String × String) :=
  if g.relation = r then
    if g.on then ps ++ [g.pair]
    else if r = .CommentLike then ps
    else ps.filter fun p => p ≠ g.pair
  else ps

/-- **The pairs after some requests.** -/
def entered (r : Relation) (gs : List Toggle) : List (String × String) :=
  gs.foldl (Toggle.after r) []

/-- A pair as a row. -/
def cellsOf (p : String × String) : Cells := [p.1, p.2]

theorem entered_concat (r : Relation) (gs : List Toggle) (g : Toggle) :
    entered r (gs ++ [g]) = g.after r (entered r gs) := by
  rw [entered, List.foldl_append, List.foldl_cons, List.foldl_nil]
  rfl

/-- Only pairs that some request is about are there. -/
theorem mem_entered {r : Relation} {gs : List Toggle} {p : String × String} (h : p ∈ entered r gs) :
    ∃ g ∈ gs, g.about r p = true := by
  induction gs using List.reverseRecOn with
  | nil => cases h
  | append_singleton gs g ih =>
    have hold : p ∈ entered r gs → ∃ g' ∈ gs ++ [g], g'.about r p = true := by
      intro h
      obtain ⟨g', hg', habout⟩ := ih h
      exact ⟨g', List.mem_append_left _ hg', habout⟩
    rw [entered_concat, Toggle.after] at h
    split_ifs at h with hr hon hr'
    · rcases List.mem_append.mp h with h | h
      · exact hold h
      · rw [List.mem_singleton] at h
        exact ⟨g, List.mem_append_right _
          (List.mem_singleton_self _), by simp [Toggle.about, hr, h]⟩
    · exact hold h
    · exact hold (List.mem_of_mem_filter h)
    · exact hold h

/-- Their ids are canonical. -/
theorem canonical_of_entered {r : Relation} {gs : List Toggle} (hgs : ∀ g ∈ gs, g.Plain)
    {p : String × String} (h : p ∈ entered r gs) : Canonical p.1 ∧ Canonical p.2 := by
  obtain ⟨g, hg, habout⟩ := mem_entered h
  rw [Toggle.about, decide_eq_true_iff] at habout
  exact habout.2 ▸ hgs g hg

/-- The tables hold the pairs that are entered. -/
def Holds (t : Tables) (gs : List Toggle) : Prop :=
  ∀ r : Relation, t.cells r.table = (entered r gs).map cellsOf

/-- The one deletion that cannot succeed. -/
def NoSuchColumn (command : Control.Command) : Prop := ∃ a b, command = .deleteCommentLike a b

/-! ### Counting -/

/-- What the requests about a pair do, in order. -/
def actions (r : Relation) (p : String × String) (gs : List Toggle) : List Bool :=
  (gs.filter fun g => g.about r p).map Toggle.on

/-- The last request about a pair has entered it. -/
def LastOn (r : Relation) (p : String × String) (gs : List Toggle) : Prop :=
  (actions r p gs).getLast? = some true

instance (r : Relation) (p : String × String) (gs : List Toggle) : Decidable (LastOn r p gs) :=
  inferInstanceAs (Decidable (_ = _))

/-- How often a pair has been entered since it was last taken back. -/
def streak (r : Relation) (p : String × String) (gs : List Toggle) : ℕ :=
  ((actions r p gs).reverse.takeWhile id).length

/-- How often a pair has been entered. -/
def entries (r : Relation) (p : String × String) (gs : List Toggle) :
    ℕ := (actions r p gs).count true

section Counting

variable {r : Relation} {p : String × String} {gs : List Toggle} {g : Toggle}

theorem actions_concat :
    actions r p (gs ++ [g]) = if g.about r p then actions r p gs ++ [g.on] else actions r p gs := by
  rw [actions, List.filter_append, List.map_append]
  cases h : g.about r p <;> simp [h, actions]

theorem streak_concat : streak r p (gs ++ [g]) =
    if g.about r p then if g.on then streak r p gs + 1 else 0 else streak r p gs := by
  rw [streak, actions_concat]
  split
  · rw [List.reverse_append, List.reverse_singleton, List.singleton_append, List.takeWhile_cons]
    cases g.on <;> simp [streak]
  · rfl

theorem entries_concat : entries r p (gs ++ [g]) =
    if g.about r p then if g.on then entries r p gs + 1 else entries r p gs else entries r p
      gs := by
  rw [entries, actions_concat]
  split
  · rw [List.count_append]
    cases g.on <;> simp [entries]
  · rfl

/-- A pair that was entered last has been entered since it was last taken back. -/
theorem lastOn_iff : LastOn r p gs ↔ 0 < streak r p gs := by
  induction gs using List.reverseRecOn with
  | nil => simp [LastOn, streak, actions]
  | append_singleton gs g ih =>
    rw [LastOn, actions_concat, streak_concat]
    split
    · rw [List.getLast?_append, List.getLast?_singleton]
      cases g.on <;> simp
    · exact ih

/-- **How often a pair is there.** -/
theorem count_entered :
    (entered r gs).count p = if r = .CommentLike then entries r p gs else streak r p gs := by
  induction gs using List.reverseRecOn with
  | nil => simp [entered, entries, streak, actions]
  | append_singleton gs g ih =>
    have habout : g.about r p = true ↔ g.relation = r ∧ g.pair = p := by
      rw [Toggle.about, decide_eq_true_iff]
    rw [entered_concat, Toggle.after, streak_concat, entries_concat]
    simp only [habout]
    by_cases hr : g.relation = r
    · cases hon : g.on with
      | true =>
        rw [if_pos hr, if_pos rfl, List.count_append, ih]
        by_cases hp : g.pair = p
        · simp only [hr, hp, and_self, if_true, List.count_singleton, beq_self_eq_true]
          split <;> rfl
        · simp [hp]
      | false =>
        rw [if_pos hr]
        simp only [Bool.false_eq_true, if_false, hr, true_and]
        by_cases hc : r = .CommentLike
        · simp only [if_pos hc] at ih ⊢
          rw [ih]
          split <;> rfl
        · simp only [if_neg hc] at ih ⊢
          by_cases hp : g.pair = p
          · rw [if_pos hp, List.count_eq_zero]
            simp [hp]
          · rw [if_neg hp, List.count_filter (by simpa using Ne.symm hp), ih]
    · rw [if_neg hr, ih]
      simp [hr]

end Counting

section Step

variable {H : Type} {db : Database H} {now : H → String} {equals : String → String → Bool}
  {t : Tables} {m : Meeting H}
  {gs : List Toggle}

/-- A pair is entered, or the statement fails. -/
theorem Database.Follows.enter (hdb : db.Follows now equals) (r : Relation) {a b : String}
    (ha : IsNumber a) (hb : IsNumber b) : ∃ ok, db.perform t (.query_execute (r.enter a b)) m =
      (if ok then t.apply r.table (changeOf (.insert [a, b])) else t, ok) := by
  have hparse := parse_enter r (literal_of_isNumber ha) (literal_of_isNumber hb)
  have hedit := edit_enter r ha hb equals (now m.db)
  by_cases hfits : a.length ≤ 30 ∧ b.length ≤ 30
  · rw [if_pos hfits] at hedit
    exact hdb.perform (changes_enter r) hparse hedit
  · rw [if_neg hfits] at hedit
    exact ⟨false, hdb.perform_fails (changes_enter r) hparse hedit⟩

/-- All rows of a pair are deleted, or the statement fails. -/
theorem Database.Follows.takeBack (hdb : db.Follows now equals) {r : Relation}
    (hr : r ≠ .CommentLike) {a b : String} (ha : IsNumber a) (hb : IsNumber b) :
    ∃ ok, db.perform t (.query_execute (r.takeBack a b)) m =
      (if ok then t.apply r.table (changeOf (.delete (meets equals [(0, a), (1, b)]))) else t,
      ok) := by
  have hparse := parse_takeBack r ha hb
  cases r with
  | VideoLike => exact hdb.perform rfl hparse (edit_deleteVideoLike equals (now m.db))
  | CommentLike => exact absurd rfl hr
  | Follow => exact hdb.perform rfl hparse (edit_deleteFollow equals (now m.db))

/-- **The deletion from `CommentLike` fails.** -/
theorem Database.Follows.deleteCommentLike (hdb : db.Follows now equals) {a b : String}
    (ha : IsNumber a)
    (hb : IsNumber b) : db.perform t (.query_execute (.deleteCommentLike a b)) m = (t, false) :=
  hdb.perform_fails rfl (parse_deleteCommentLike ha hb) (edit_deleteCommentLike equals (now m.db))

/-- Canonical numbers are equal to a database when they are the same. -/
theorem equals_canonical (hequals : Numeric equals) {a b : String} (ha : Canonical a)
    (hb : Canonical b) :
    equals a b = decide (a = b) := by
  rw [Bool.eq_iff_iff, hequals a b ha.isNumber hb.isNumber, decide_eq_true_iff]
  exact ha.value_inj hb

/-- The rows a statement finds by an id are those with the id. -/
theorem meets_fst (hequals : Numeric equals) {p : String × String} {a : String} (hp : Canonical p.1)
    (ha : Canonical a) : meets equals [(0, a)] (cellsOf p) = decide (p.1 = a) := by
  have hmeets : meets equals [(0, a)] (cellsOf p) = (equals p.1 a && true) := rfl
  rw [hmeets, Bool.and_true, equals_canonical hequals hp ha]

theorem meets_snd (hequals : Numeric equals) {p : String × String} {b : String} (hp : Canonical p.2)
    (hb : Canonical b) : meets equals [(1, b)] (cellsOf p) = decide (p.2 = b) := by
  have hmeets : meets equals [(1, b)] (cellsOf p) = (equals p.2 b && true) := rfl
  rw [hmeets, Bool.and_true, equals_canonical hequals hp hb]

/-- The rows a statement finds by two ids are those of the pair. -/
theorem meets_pair (hequals : Numeric equals) {p q : String × String}
    (hp : Canonical p.1 ∧ Canonical p.2) (hq : Canonical q.1 ∧ Canonical q.2) :
    meets equals [(0, q.1), (1, q.2)] (cellsOf p) = decide (p = q) := by
  have hmeets :
      meets equals [(0, q.1), (1, q.2)] (cellsOf p) =
        (equals p.1 q.1 && (equals p.2 q.2 && true)) :=
    rfl
  rw [hmeets, equals_canonical hequals hp.1 hq.1, equals_canonical hequals hp.2 hq.2, Bool.and_true,
    ← Bool.decide_and, decide_eq_decide]
  exact Prod.ext_iff.symm

variable {r : Relation} {a b : String}

theorem table_injective : Function.Injective Relation.table := by
  intro r r' h
  cases r <;> cases r' <;> first | rfl | cases h

/-- The tables of the other relations, after a change of one. -/
theorem Holds.other (h : Holds t gs) (change : Change) {r' : Relation} (hr : r' ≠ g.relation) :
    (t.apply g.relation.table change).cells r'.table = (entered r' (gs ++ [g])).map cellsOf := by
  have htable : r'.table ≠ g.relation.table := fun heq => hr (table_injective heq)
  rw [Tables.cells_apply_ne htable, h r', entered_concat, Toggle.after, if_neg hr.symm]

theorem Holds.insert (h : Holds t gs) :
    Holds (t.apply r.table (changeOf (.insert [a, b]))) (gs ++ [⟨r, (a, b), true⟩]) := by
  intro r'
  by_cases hr : r' = r
  · subst hr
    rw [Tables.cells_insert, h r', entered_concat, Toggle.after, if_pos rfl, if_pos rfl,
      List.map_append]
    rfl
  · exact h.other (g := ⟨r, (a, b), true⟩) _ hr

theorem Holds.delete (hequals : Numeric equals) (h : Holds t gs) (hgs : ∀ g ∈ gs, g.Plain)
    (hr : r ≠ .CommentLike) (ha : Canonical a) (hb : Canonical b) :
    Holds (t.apply r.table (changeOf (.delete (meets equals [(0, a), (1, b)]))))
      (gs ++ [⟨r, (a, b), false⟩]) := by
  intro r'
  by_cases hr' : r' = r
  · subst hr'
    have hafter : Toggle.after r' (entered r' gs) ⟨r', (a, b), false⟩ =
        (entered r' gs).filter fun p => p ≠ (a, b) := by
      simp only [Toggle.after, if_true, Bool.false_eq_true, if_false, hr]
    rw [Tables.cells_delete, h r', entered_concat, hafter, List.filter_map]
    congr 1
    apply List.filter_congr
    intro p hp
    rw [Function.comp_apply, meets_pair hequals (q := (a, b)) (canonical_of_entered hgs hp)
      ⟨ha, hb⟩, decide_not]
  · exact h.other (g := ⟨r, (a, b), false⟩) _ hr'

theorem Holds.nothing (h : Holds t gs) : Holds t (gs ++ [⟨.CommentLike, (a, b), false⟩]) := by
  intro r'
  have hafter : Toggle.after r' (entered r' gs) ⟨.CommentLike, (a, b), false⟩ = entered r' gs := by
    cases r' <;> rfl
  rw [h r', entered_concat, hafter]

/-- What the tables hold after the statement of a request. -/
theorem Holds.toggle (hdb : db.Follows now equals) (h : Holds t gs) (hgs : ∀ g ∈ gs, g.Plain)
    (hg : g.Plain)
    (hok : (db.perform t (.query_execute g.command) m).2 = true ∨ NoSuchColumn g.command) :
    Holds (db.perform t (.query_execute g.command) m).1 (gs ++ [g]) := by
  obtain ⟨r, ⟨a, b⟩, on⟩ := g
  have ha : Canonical a := hg.1
  have hb : Canonical b := hg.2
  cases on with
  | true =>
    have hcommand : (Toggle.mk r (a, b) true).command = r.enter a b := rfl
    rw [hcommand] at hok ⊢
    obtain ⟨ok, hperform⟩ := hdb.enter (t := t) (m := m) r ha.isNumber hb.isNumber
    rw [hperform] at hok ⊢
    have htrue : ok = true := by
      rcases hok with hok | ⟨x, y, hxy⟩
      · exact hok
      · cases r <;> cases hxy
    subst htrue
    exact h.insert
  | false =>
    have hcommand : (Toggle.mk r (a, b) false).command = r.takeBack a b := rfl
    rw [hcommand] at hok ⊢
    by_cases hr : r = .CommentLike
    · subst hr
      have hperform := hdb.deleteCommentLike (t := t) (m := m) ha.isNumber hb.isNumber
      have hcommand : Relation.CommentLike.takeBack a b = .deleteCommentLike a b := rfl
      rw [hcommand, hperform]
      exact h.nothing
    · obtain ⟨ok, hperform⟩ := hdb.takeBack (t := t) (m := m) hr ha.isNumber hb.isNumber
      rw [hperform] at hok ⊢
      have htrue : ok = true := by
        rcases hok with hok | ⟨x, y, hxy⟩
        · exact hok
        · cases r with
          | VideoLike => cases hxy
          | CommentLike => exact absurd rfl hr
          | Follow => cases hxy
      subst htrue
      exact h.delete hdb.numeric hgs hr ha hb

/-- **What the tables hold** after a sequence of such requests, with no statement failing but the
one that cannot succeed. -/
theorem exec_toggles (hdb : db.Follows now equals) {requests : List (List UInt8 × Meeting H)}
    {gs : List Toggle} (hgs : requests.map (fun request => toggleOf lib request.1) = gs.map some)
    (hplain : ∀ g ∈ gs, g.Plain)
    (hok : (db.serving (ModifyInfoControl.modify_info lib server)).Guarded
      (db.Succeeds (ModifyInfoControl.modify_info lib server) NoSuchColumn) initDataBase requests)
    (hrun : (db.serving (ModifyInfoControl.modify_info lib server)).exec initDataBase requests =
      some t) :
    Holds t gs := by
  induction requests using List.reverseRecOn generalizing gs t with
  | nil =>
    cases hrun
    obtain rfl : gs = [] := by simpa using hgs.symm
    intro r
    rfl
  | append_singleton requests request ih =>
    rw [Machine.exec_append] at hrun
    obtain ⟨s, hs, hrun⟩ := Option.bind_eq_some_iff.mp hrun
    obtain ⟨hok, hlast⟩ := (Machine.guarded_append_iff _ hs).mp hok
    rw [Machine.guarded_singleton] at hlast
    rw [Machine.exec_singleton] at hrun
    obtain ⟨gs, g, rfl⟩ : ∃ gs' g, gs = gs' ++ [g] := by
      rcases List.eq_nil_or_concat' gs with rfl | ⟨gs', g, rfl⟩
      · simp at hgs
      · exact ⟨gs', g, rfl⟩
    rw [List.map_append, List.map_append] at hgs
    obtain ⟨hgs, hg⟩ := List.append_inj' hgs rfl
    have hg : toggleOf lib request.1 = some g := by simpa using hg
    have hholds := ih hgs (fun g hg => hplain g (List.mem_append_left _ hg)) hok hs
    rw [Database.Succeeds, modify_info_toggle hg, handle_statement] at hlast
    simp only [Database.serving, modify_info_toggle hg, handle_statement, Option.some.injEq] at hrun
    subst hrun
    refine hholds.toggle hdb (fun g hg => hplain g (List.mem_append_left _ hg))
      (hplain g (List.mem_append_right _ (List.mem_singleton_self _))) ?_
    by_cases hfail : (db.perform s (.query_execute g.command) request.2).2 = true
    · exact .inl hfail
    · right
      obtain ⟨command, ok, heq, hexcused⟩ :=
        hlast _ (List.mem_singleton_self _) (by simpa [failed] using hfail)
      cases heq
      exact hexcused

end Step

end PickUpLight.Store
