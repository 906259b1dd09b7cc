import Yuance.Files.Validation
import Yuance.Lib.JsonText
import Yuance.Projects.Validation

/-!
# Yuance.Web.LogMetadata

The metadata with names of the audit log and of the project activities, which is put together by
hand: the folder handlers and `system_release_audit_source` of `api/src/web/api/mod.rs`, the entries
of `create_attachment_inner` and `archive_attachment` in `api/src/domains/files.rs`, and those of a
work item's cycle in `api/src/domains/projects.rs`.

* `folderMetadata`, `systemReleaseAuditSource`, `attachmentMetadata`, `archivedMetadata`,
  `cycleMetadata`, `updatedCycleMetadata`: the texts.
* `folder_reads_iff` and the others: which names they read back with.
-/

namespace Yuance
namespace Web
namespace LogMetadata

open Lib Platform

/-! ## The texts -/

/-- `validate_name` of `api/src/domains/system_api_tokens.rs`. -/
def validateTokenName (name : String) : Except AppError String := do
  rejectIf (trim name = "" ∨ byteLen (trim name) > 80)
    (.badRequest "系统访问 Token 名称不能为空且不能超过 80 个字符")
  pure (trim name)

/-- `value.replace('"', "\\\"")`. -/
def backslashed (value : String) : String := String.ofList (Json.escapeQuotes value.toList)

/-- `value.replace('"', "'")`. -/
def softened (value : String) : String :=
  String.ofList (value.toList.map fun c => if c = Json.quote then '\'' else c)

/-- The metadata of `create_project_folder`, `update_folder` and `delete_folder`. -/
def folderMetadata (folderId : Int) (name : String) : String :=
  "\x7b\"folder_id\":" ++ toString folderId ++ ",\"name\":\"" ++ name ++ "\"\x7d"

inductive SystemReleaseApiPrincipal where
  | session
  | token (tokenId : Int) (tokenName : String)

/-- The source of a call with a token. -/
def tokenAuditSource (tokenId : Int) (tokenName : String) : String :=
  "\"source\":\"api-system-token\",\"token_id\":" ++ toString tokenId ++ ",\"token_name\":\""
    ++ backslashed tokenName ++ "\""

def systemReleaseAuditSource : SystemReleaseApiPrincipal → String
  | .session => "\"source\":\"api\""
  | .token tokenId tokenName => tokenAuditSource tokenId tokenName

/-- The source inside its braces. -/
def releaseMetadata (principal : SystemReleaseApiPrincipal) : String :=
  "\x7b" ++ systemReleaseAuditSource principal ++ "\x7d"

/-- The activity of `create_attachment_inner`. -/
def attachmentMetadata (fileObjectId : Int) (originalFilename : String) : String :=
  "\x7b\"file_object_id\":" ++ toString fileObjectId ++ ",\"filename\":\""
    ++ backslashed originalFilename ++ "\"\x7d"

/-- The activity of `archive_attachment`. -/
def archivedMetadata (attachmentId fileObjectId : Int) (originalFilename : String) : String :=
  "\x7b\"attachment_id\":" ++ toString attachmentId ++ ",\"file_object_id\":"
    ++ toString fileObjectId ++ ",\"filename\":\"" ++ backslashed originalFilename ++ "\"\x7d"

/-- The cycle of a work item, its id and its name, if it has one. -/
abbrev CycleRef := Option (Int × String)

def CycleRef.id (cycle : CycleRef) : Option Int := cycle.map Prod.fst

/-- `COALESCE(pc.name, '')`. -/
def CycleRef.name (cycle : CycleRef) : String := (cycle.map Prod.snd).getD ""

/-- `value.map(|value| value.to_string()).unwrap_or_else(|| "null".to_string())`. -/
def idText (id : Option Int) : String := (id.map toString).getD "null"

/-- The activity of a cycle in `batch_update_work_items` and `set_work_item_cycle`. -/
def cycleMetadata (previous next : CycleRef) : String :=
  "\x7b\"previous_cycle_id\":" ++ idText previous.id ++ ",\"previous_cycle_name\":\""
    ++ softened previous.name ++ "\",\"cycle_id\":" ++ idText next.id ++ ",\"cycle_name\":\""
    ++ softened next.name ++ "\"\x7d"

/-- The activity of a cycle in `update_work_item`. -/
def updatedCycleMetadata (previousId : Option Int) (next : CycleRef) : String :=
  "\x7b\"previous_cycle_id\":" ++ idText previousId ++ ",\"cycle_id\":" ++ idText next.id
    ++ ",\"cycle_name\":\"" ++ softened next.name ++ "\"\x7d"

/-! ## What they should say -/

/-- The text is an object with these fields. -/
def ReadsAs (metadata : String) (fields : List (String × Json)) : Prop :=
  Json.parse metadata = some (.obj fields)

def idJson : Option Int → Json
  | none => .null
  | some id => .num id

def folderFields (folderId : Int) (name : String) : List (String × Json) :=
  [("folder_id", .num folderId), ("name", .str name)]

def releaseFields : SystemReleaseApiPrincipal → List (String × Json)
  | .session => [("source", .str "api")]
  | .token tokenId tokenName =>
    [("source", .str "api-system-token"), ("token_id", .num tokenId),
      ("token_name", .str tokenName)]

def attachmentFields (fileObjectId : Int) (originalFilename : String) : List (String × Json) :=
  [("file_object_id", .num fileObjectId), ("filename", .str originalFilename)]

def archivedFields (attachmentId fileObjectId : Int) (originalFilename : String) :
    List (String × Json) :=
  [("attachment_id", .num attachmentId), ("file_object_id", .num fileObjectId),
    ("filename", .str originalFilename)]

def cycleFields (previous next : CycleRef) : List (String × Json) :=
  [("previous_cycle_id", idJson previous.id), ("previous_cycle_name", .str previous.name),
    ("cycle_id", idJson next.id), ("cycle_name", .str next.name)]

def updatedCycleFields (previousId : Option Int) (next : CycleRef) : List (String × Json) :=
  [("previous_cycle_id", idJson previousId), ("cycle_id", idJson next.id),
    ("cycle_name", .str next.name)]

/-- No character is a control character or a backslash. -/
def Printed (name : String) : Prop := ∀ c ∈ name.toList, Json.Printable c

/-- Printed, and without quotes. -/
def Bare (name : String) : Prop := Json.quote ∉ name.toList ∧ Printed name

/-! ## One name -/

section Texts

variable {name : String} {head : List (String × Json)} {key : String} {inside : List Char}

theorem toList_toString (n : Int) : (toString n).toList = Json.text (.num n) := by
  cases n with
  | ofNat m => exact String.toList_ofList
  | negSucc m =>
    show ("-" ++ Nat.repr (m + 1)).toList = _
    rw [String.toList_append]
    exact congrArg ('-' :: ·) String.toList_ofList

theorem toList_idText (id : Option Int) : (idText id).toList = Json.text (idJson id) := by
  cases id with
  | none => rfl
  | some id => exact toList_toString id

/-- A name behind a backslash at its quotes. -/
theorem backslashed_reads_iff (hkeys : (head.map Prod.fst ++ [key]).Nodup)
    (hd : ∀ f ∈ head, f.2.Distinct) {metadata : String}
    (htext : metadata.toList = '{' :: (Json.headText head ++
      Json.literalText key (backslashed name).toList ['}'])) :
    ReadsAs metadata (head ++ [(key, .str name)]) ↔ Printed name := by
  obtain rfl : String.ofList _ = metadata :=
    (congrArg String.ofList htext.symm).trans String.ofList_toList
  have hescaped : (backslashed name).toList = Json.escapeQuotes name.toList := String.toList_ofList
  unfold ReadsAs
  rw [hescaped, Json.parse_literal_iff hkeys hd (Nat.le_of_eq (Json.weight_escapeQuotes _))
    (Nat.le_refl _)]
  exact and_iff_right rfl

theorem length_le_escapeQuotes (cs : List Char) : cs.length ≤ (Json.escapeQuotes cs).length := by
  have := Json.weight_le_length (Json.escapeQuotes cs)
  rwa [Json.weight_escapeQuotes] at this

/-- A text as long as the name, which is the name where that has no quotes. -/
theorem unescaped_reads_iff (hkeys : (head.map Prod.fst ++ [key]).Nodup)
    (hd : ∀ f ∈ head, f.2.Distinct) (hlength : inside.length = name.toList.length)
    (hsame : Json.quote ∉ name.toList → inside = name.toList) {metadata : String}
    (htext : metadata.toList = '{' :: (Json.headText head ++ Json.literalText key inside ['}'])) :
    ReadsAs metadata (head ++ [(key, .str name)]) ↔ Bare name := by
  obtain rfl : String.ofList _ = metadata :=
    (congrArg String.ofList htext.symm).trans String.ofList_toList
  have hlong := length_le_escapeQuotes name.toList
  have hweight := Json.weight_le_length inside
  unfold ReadsAs
  rw [Json.parse_literal_iff hkeys hd (by omega) (by omega)]
  constructor
  · rintro ⟨rfl, hall⟩
    have hquote := @Json.not_mem_of_weight (Json.escapeQuotes name.toList)
      ((Json.weight_escapeQuotes _).trans hlength.symm)
    refine ⟨fun hmem => hquote ?_, hall⟩
    exact List.mem_flatMap.mpr ⟨Json.quote, hmem, by simp⟩
  · rintro ⟨hquote, hall⟩
    exact ⟨(hsame hquote).trans (Json.escapeQuotes_of_not_mem hquote).symm, hall⟩

theorem softened_length (name : String) : (softened name).toList.length = name.toList.length := by
  unfold softened
  rw [String.toList_ofList, List.length_map]

theorem softened_of_not_mem (h : Json.quote ∉ name.toList) :
    (softened name).toList = name.toList := by
  unfold softened
  rw [String.toList_ofList]
  refine (List.map_congr_left fun c hc => if_neg ?_).trans (List.map_id' _)
  rintro rfl
  exact h hc

theorem quote_not_mem_softened (name : String) : Json.quote ∉ (softened name).toList := by
  unfold softened
  rw [String.toList_ofList, List.mem_map]
  rintro ⟨c, _, hc⟩
  split at hc
  · exact absurd hc (by decide)
  · rename_i hne
    exact hne hc

end Texts

/-! ## Every text -/

theorem quote_eq : Json.quote = '"' := rfl

/-- The keys and the fixed texts stand in the metadata as they are. -/
theorem headText_cons (f : String × Json) (head : List (String × Json)) :
    Json.headText (f :: head) =
      Json.stringText f.1 ++ ':' :: (Json.text f.2 ++ ',' :: Json.headText head) := by
  simp [Json.headText]

theorem folder_reads_iff (folderId : Int) (name : String) :
    ReadsAs (folderMetadata folderId name) (folderFields folderId name) ↔ Bare name := by
  have hdistinct : ∀ f ∈ [("folder_id", Json.num folderId)], f.2.Distinct := by
    intro f hf
    obtain rfl := List.mem_singleton.mp hf
    exact .num _
  have htext : (folderMetadata folderId name).toList = '{' ::
      (Json.headText [("folder_id", .num folderId)] ++
        Json.literalText "name" name.toList ['}']) := by
    rw [headText_cons]
    dsimp only
    rw [Json.literalText, ← toList_toString, Json.stringText_plain (s := "folder_id") (by decide),
      Json.stringText_plain (s := "name") (by decide), quote_eq]
    unfold folderMetadata
    generalize toString folderId = id
    simp only [String.toList_append, Json.headText, List.flatMap_nil, List.append_assoc,
      List.nil_append, List.cons_append]
    rfl
  exact unescaped_reads_iff (by simp) hdistinct rfl (fun _ => rfl) htext

theorem distinct_idJson (id : Option Int) : (idJson id).Distinct := by
  cases id with
  | none => exact .null
  | some id => exact .num id

theorem session_reads : ReadsAs (releaseMetadata .session) (releaseFields .session) := by
  have hparse := @Json.parse_stringify (.obj [("source", .str "api")])
    (.obj (by simp) fun f hf => by
      obtain rfl := List.mem_singleton.mp hf
      exact .str _) "" (fun c hc => nomatch hc)
  rw [String.append_empty] at hparse
  exact hparse

theorem token_reads_iff (tokenId : Int) (tokenName : String) :
    ReadsAs (releaseMetadata (.token tokenId tokenName))
        (releaseFields (.token tokenId tokenName)) ↔
      Printed tokenName := by
  have hdistinct : ∀ f ∈ [("source", Json.str "api-system-token"), ("token_id", .num tokenId)],
      f.2.Distinct := by
    intro f hf
    rcases List.mem_pair.mp hf with rfl | rfl
    · exact .str _
    · exact .num _
  have htext : (releaseMetadata (.token tokenId tokenName)).toList = '{' ::
      (Json.headText [("source", .str "api-system-token"), ("token_id", .num tokenId)] ++
        Json.literalText "token_name" (backslashed tokenName).toList ['}']) := by
    rw [headText_cons, headText_cons]
    dsimp only
    rw [Json.literalText, ← toList_toString, Json.text,
      Json.stringText_plain (s := "source") (by decide),
      Json.stringText_plain (s := "token_id") (by decide),
      Json.stringText_plain (s := "token_name") (by decide),
      Json.stringText_plain (s := "api-system-token") (by decide), quote_eq]
    show ("\x7b" ++ tokenAuditSource tokenId tokenName ++ "\x7d").toList = _
    unfold tokenAuditSource
    generalize backslashed tokenName = name
    generalize toString tokenId = id
    simp only [String.toList_append, Json.headText, List.flatMap_nil, List.append_assoc,
      List.nil_append, List.cons_append]
    rfl
  exact backslashed_reads_iff (by simp) hdistinct htext

theorem attachment_reads_iff (fileObjectId : Int) (originalFilename : String) :
    ReadsAs (attachmentMetadata fileObjectId originalFilename)
        (attachmentFields fileObjectId originalFilename) ↔ Printed originalFilename := by
  have hdistinct : ∀ f ∈ [("file_object_id", Json.num fileObjectId)], f.2.Distinct := by
    intro f hf
    obtain rfl := List.mem_singleton.mp hf
    exact .num _
  have htext : (attachmentMetadata fileObjectId originalFilename).toList = '{' ::
      (Json.headText [("file_object_id", .num fileObjectId)] ++
        Json.literalText "filename" (backslashed originalFilename).toList ['}']) := by
    rw [headText_cons]
    dsimp only
    rw [Json.literalText, ← toList_toString,
      Json.stringText_plain (s := "file_object_id") (by decide),
      Json.stringText_plain (s := "filename") (by decide), quote_eq]
    unfold attachmentMetadata
    generalize backslashed originalFilename = name
    generalize toString fileObjectId = id
    simp only [String.toList_append, Json.headText, List.flatMap_nil, List.append_assoc,
      List.nil_append, List.cons_append]
    rfl
  exact backslashed_reads_iff (by simp) hdistinct htext

theorem archived_reads_iff (attachmentId fileObjectId : Int) (originalFilename : String) :
    ReadsAs (archivedMetadata attachmentId fileObjectId originalFilename)
        (archivedFields attachmentId fileObjectId originalFilename) ↔ Printed originalFilename := by
  have hdistinct : ∀ f ∈ [("attachment_id", Json.num attachmentId),
      ("file_object_id", .num fileObjectId)], f.2.Distinct := by
    intro f hf
    rcases List.mem_pair.mp hf with rfl | rfl
    · exact .num _
    · exact .num _
  have htext : (archivedMetadata attachmentId fileObjectId originalFilename).toList = '{' ::
      (Json.headText
          [("attachment_id", .num attachmentId), ("file_object_id", .num fileObjectId)] ++
        Json.literalText "filename" (backslashed originalFilename).toList ['}']) := by
    rw [headText_cons, headText_cons]
    dsimp only
    rw [Json.literalText, ← toList_toString, ← toList_toString,
      Json.stringText_plain (s := "attachment_id") (by decide),
      Json.stringText_plain (s := "file_object_id") (by decide),
      Json.stringText_plain (s := "filename") (by decide), quote_eq]
    unfold archivedMetadata
    generalize backslashed originalFilename = name
    generalize toString attachmentId = id
    generalize toString fileObjectId = file
    simp only [String.toList_append, Json.headText, List.flatMap_nil, List.append_assoc,
      List.nil_append, List.cons_append]
    rfl
  exact backslashed_reads_iff (by simp) hdistinct htext

theorem updatedCycle_reads_iff (previousId : Option Int) (next : CycleRef) :
    ReadsAs (updatedCycleMetadata previousId next) (updatedCycleFields previousId next) ↔
      Bare next.name := by
  have hdistinct : ∀ f ∈ [("previous_cycle_id", idJson previousId), ("cycle_id", idJson next.id)],
      f.2.Distinct := by
    intro f hf
    rcases List.mem_pair.mp hf with rfl | rfl
    · exact distinct_idJson _
    · exact distinct_idJson _
  have htext : (updatedCycleMetadata previousId next).toList = '{' ::
      (Json.headText [("previous_cycle_id", idJson previousId), ("cycle_id", idJson next.id)] ++
        Json.literalText "cycle_name" (softened next.name).toList ['}']) := by
    rw [headText_cons, headText_cons]
    dsimp only
    rw [Json.literalText, ← toList_idText, ← toList_idText,
      Json.stringText_plain (s := "previous_cycle_id") (by decide),
      Json.stringText_plain (s := "cycle_id") (by decide),
      Json.stringText_plain (s := "cycle_name") (by decide), quote_eq]
    unfold updatedCycleMetadata
    generalize softened next.name = name
    generalize idText previousId = previous
    generalize idText next.id = id
    simp only [String.toList_append, Json.headText, List.flatMap_nil, List.append_assoc,
      List.nil_append, List.cons_append]
    rfl
  exact unescaped_reads_iff (by simp) hdistinct (softened_length _) softened_of_not_mem htext

theorem bare_of_reads {name : String} (h : Json.Reads (softened name).toList name.toList) :
    Bare name := by
  have hweight := Json.weight_of_not_mem (quote_not_mem_softened name)
  obtain ⟨hsame, hall⟩ := h.exact (by rw [hweight, softened_length])
  refine ⟨fun hmem => quote_not_mem_softened name ?_, hall⟩
  rw [hsame]
  exact List.mem_flatMap.mpr ⟨Json.quote, hmem, by simp⟩

theorem plain_of_bare {name : String} (h : Bare name) : Json.Plain name := by
  intro c hc
  obtain ⟨hbackslash, hcontrol⟩ := h.2 c hc
  refine Json.escapeChar_plain hcontrol ?_ hbackslash
  rintro rfl
  exact h.1 hc

/-- The name of the cycle after the next field begins with a letter. -/
theorem headText_cycleId (id : Option Int) : ∃ tail,
    Json.headText [("cycle_id", idJson id)] = Json.quote :: 'c' :: tail := by
  rw [headText_cons]
  dsimp only
  rw [Json.stringText_plain (s := "cycle_id") (by decide)]
  exact ⟨_, rfl⟩

theorem cycle_text (previous next : CycleRef) : (cycleMetadata previous next).toList = '{' ::
    (Json.headText [("previous_cycle_id", idJson previous.id)] ++
      Json.literalText "previous_cycle_name" (softened previous.name).toList
        (',' :: (Json.headText [("cycle_id", idJson next.id)] ++
          Json.literalText "cycle_name" (softened next.name).toList ['}']))) := by
  rw [headText_cons, headText_cons]
  dsimp only
  rw [Json.literalText, Json.literalText, ← toList_idText, ← toList_idText,
    Json.stringText_plain (s := "previous_cycle_id") (by decide),
    Json.stringText_plain (s := "previous_cycle_name") (by decide),
    Json.stringText_plain (s := "cycle_id") (by decide),
    Json.stringText_plain (s := "cycle_name") (by decide), quote_eq]
  unfold cycleMetadata
  generalize softened previous.name = previousName
  generalize softened next.name = name
  generalize idText previous.id = previousId
  generalize idText next.id = id
  simp only [String.toList_append, Json.headText, List.flatMap_nil, List.append_assoc,
    List.nil_append, List.cons_append]
  rfl

theorem cycle_reads_iff (previous next : CycleRef) :
    ReadsAs (cycleMetadata previous next) (cycleFields previous next) ↔
      Bare previous.name ∧ Bare next.name := by
  have hsource : cycleMetadata previous next = String.ofList _ :=
    String.ofList_toList.symm.trans (congrArg String.ofList (cycle_text previous next))
  constructor
  · intro h
    unfold ReadsAs at h
    rw [hsource] at h
    obtain ⟨tail, htail⟩ := headText_cycleId next.id
    obtain ⟨r, r', hr, hr', hobject⟩ := Json.reads_both
      (fun f hf => by
        obtain rfl := List.mem_singleton.mp hf
        exact distinct_idJson _) (distinct_idJson _) htail (by decide) (by decide) (by decide)
      (quote_not_mem_softened _) (quote_not_mem_softened _) h
    have hfields := Json.obj.inj hobject
    rw [Json.ofFields_of_nodup (by simp)] at hfields
    obtain ⟨_, hfields⟩ := List.cons.inj hfields
    obtain ⟨hprevious, hfields⟩ := List.cons.inj hfields
    obtain ⟨_, hfields⟩ := List.cons.inj hfields
    obtain ⟨hnext, _⟩ := List.cons.inj hfields
    have hr₁ : r = previous.name.toList := by
      rw [Json.str.inj (Prod.mk.inj hprevious).2, String.toList_ofList]
    have hr₂ : r' = next.name.toList := by
      rw [Json.str.inj (Prod.mk.inj hnext).2, String.toList_ofList]
    exact ⟨bare_of_reads (hr₁ ▸ hr), bare_of_reads (hr₂ ▸ hr')⟩
  · rintro ⟨hprevious, hnext⟩
    have hdistinct : Json.Distinct (.obj (cycleFields previous next)) := by
      refine .obj (by simp [cycleFields]) fun f hf => ?_
      simp only [cycleFields, List.mem_cons, List.not_mem_nil, or_false] at hf
      rcases hf with rfl | rfl | rfl | rfl
      · exact distinct_idJson _
      · exact .str _
      · exact distinct_idJson _
      · exact .str _
    have htext : Json.stringify (.obj (cycleFields previous next)) =
        cycleMetadata previous next := by
      rw [hsource, softened_of_not_mem hprevious.1, softened_of_not_mem hnext.1]
      unfold Json.stringify cycleFields
      rw [Json.text, Json.fieldsText, Json.fieldsText, Json.fieldsText, Json.fieldsText, Json.text,
        Json.text, Json.stringText_plain (plain_of_bare hprevious),
        Json.stringText_plain (plain_of_bare hnext)]
      simp [Json.headText, Json.literalText]
    have hparse := @Json.parse_stringify _ hdistinct "" (by simp)
    rw [String.append_empty, htext] at hparse
    exact hparse

theorem release_reads_iff (principal : SystemReleaseApiPrincipal) :
    ReadsAs (releaseMetadata principal) (releaseFields principal) ↔
      ∀ tokenId tokenName, principal = .token tokenId tokenName → Printed tokenName := by
  cases principal with
  | session => exact iff_of_true session_reads fun _ _ h => nomatch h
  | token tokenId tokenName =>
    rw [token_reads_iff]
    constructor
    · rintro h _ _ heq
      obtain ⟨_, rfl⟩ := SystemReleaseApiPrincipal.token.inj heq
      exact h
    · exact fun h => h tokenId tokenName rfl

/-! ## All of them -/

/-- The metadata reads back with the true names if and only if a folder or a cycle has a name
without quotes, and no name holds a control character or a backslash. -/
theorem metadata_reads_back_iff (folderId attachmentId fileObjectId : Int) (name filename : String)
    (principal : SystemReleaseApiPrincipal) (previous next : CycleRef) (previousId : Option Int) :
    (ReadsAs (folderMetadata folderId name) (folderFields folderId name) ↔ Bare name) ∧
    (ReadsAs (releaseMetadata principal) (releaseFields principal) ↔
      ∀ tokenId tokenName, principal = .token tokenId tokenName → Printed tokenName) ∧
    (ReadsAs (attachmentMetadata fileObjectId filename) (attachmentFields fileObjectId filename) ↔
      Printed filename) ∧
    (ReadsAs (archivedMetadata attachmentId fileObjectId filename)
      (archivedFields attachmentId fileObjectId filename) ↔ Printed filename) ∧
    (ReadsAs (cycleMetadata previous next) (cycleFields previous next) ↔
      Bare previous.name ∧ Bare next.name) ∧
    (ReadsAs (updatedCycleMetadata previousId next) (updatedCycleFields previousId next) ↔
      Bare next.name) :=
  ⟨folder_reads_iff folderId name, release_reads_iff principal,
    attachment_reads_iff fileObjectId filename, archived_reads_iff attachmentId fileObjectId filename,
    cycle_reads_iff previous next, updatedCycle_reads_iff previousId next⟩

instance (c : Char) : Decidable (Json.Printable c) := inferInstanceAs (Decidable (_ ∧ _))

instance (name : String) : Decidable (Printed name) := List.decidableBAll _ _

instance (name : String) : Decidable (Bare name) := inferInstanceAs (Decidable (_ ∧ _))

/-- Names that the validators accept: a quote in a folder or a cycle, a tab in a file, a backslash
in a token. -/
theorem accepted_names_break_metadata :
    (Files.validateFolderName "a\"b" = .ok "a\"b" ∧
      ¬ ReadsAs (folderMetadata 1 "a\"b") (folderFields 1 "a\"b")) ∧
    (Files.validateFilename "a\tb" = .ok "a\tb" ∧
      ¬ ReadsAs (attachmentMetadata 1 "a\tb") (attachmentFields 1 "a\tb") ∧
      ¬ ReadsAs (archivedMetadata 1 1 "a\tb") (archivedFields 1 1 "a\tb")) ∧
    (validateTokenName "a\\" = .ok "a\\" ∧
      ¬ ReadsAs (releaseMetadata (.token 1 "a\\")) (releaseFields (.token 1 "a\\"))) ∧
    (Projects.validateName "a\"b" "周期名称" 120 = .ok "a\"b" ∧
      ¬ ReadsAs (cycleMetadata none (some (1, "a\"b"))) (cycleFields none (some (1, "a\"b"))) ∧
      ¬ ReadsAs (updatedCycleMetadata none (some (1, "a\"b")))
        (updatedCycleFields none (some (1, "a\"b")))) := by
  refine ⟨⟨by decide +kernel, ?_⟩, ⟨by decide +kernel, ?_, ?_⟩, ⟨by decide +kernel, ?_⟩,
    ⟨by decide +kernel, ?_, ?_⟩⟩
  · rw [folder_reads_iff]
    decide +kernel
  · rw [attachment_reads_iff]
    decide +kernel
  · rw [archived_reads_iff]
    decide +kernel
  · rw [token_reads_iff]
    decide +kernel
  · rw [cycle_reads_iff]
    decide +kernel
  · rw [updatedCycle_reads_iff]
    decide +kernel

end LogMetadata
end Web
end Yuance
