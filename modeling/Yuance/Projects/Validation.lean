import Yuance.Files.Validation
import Yuance.Lib.Scan

/-!
# Yuance.Projects.Validation

The statuses, types and roles of `api/src/domains/projects.rs` and the checks of its input, with the
texts of their errors. A column that only holds the values of a `CHECK` is an inductive type.

* `allowedWorkItemStatusTransitions`, `workItemStatusSupported`: the two tables that govern the
  status of a work item.
-/

namespace Yuance
namespace Projects

open Lib Platform Files

inductive ProjectStatus where
  | notStarted
  | inProgress
  | acceptance
  | completed
  | onHold
  | cancelled
  | archived
  deriving DecidableEq, Repr

inductive WorkItemType where
  | requirement
  | task
  | bug
  deriving DecidableEq, Repr

/-- `open` is a keyword here. -/
inductive WorkItemStatus where
  | opened
  | inProgress
  | pendingConfirmation
  | done
  | resolved
  | verified
  | closed
  | cancelled
  deriving DecidableEq, Repr

inductive Priority where
  | p0
  | p1
  | p2
  | p3
  deriving DecidableEq, Repr

inductive MemberRole where
  | owner
  | maintainer
  | member
  | viewer
  deriving DecidableEq, Repr

inductive BatchAction where
  | assignee
  | status
  | priority
  | cycle
  deriving DecidableEq, Repr

/-! ## Names and labels -/

def WorkItemStatus.name : WorkItemStatus → String
  | opened => "open"
  | inProgress => "in_progress"
  | pendingConfirmation => "pending_confirmation"
  | done => "done"
  | resolved => "resolved"
  | verified => "verified"
  | closed => "closed"
  | cancelled => "cancelled"

def projectStatusLabel : ProjectStatus → String
  | .notStarted => "待启动"
  | .inProgress => "进行中"
  | .acceptance => "验收中"
  | .completed => "已完成"
  | .onHold => "已暂停"
  | .cancelled => "已取消"
  | .archived => "已归档"

def workItemStatusLabel : WorkItemStatus → String
  | .opened => "待处理"
  | .inProgress => "进行中"
  | .pendingConfirmation => "待确认"
  | .done => "已完成"
  | .resolved => "已解决"
  | .verified => "已验证"
  | .closed => "已关闭"
  | .cancelled => "已取消"

def workItemPriorityLabel : Priority → String
  | .p0 => "紧急"
  | .p1 => "高"
  | .p2 => "中"
  | .p3 => "低"

def workItemTypeLabel : WorkItemType → String
  | .requirement => "需求"
  | .task => "任务"
  | .bug => "Bug"

def workItemKeySegment : WorkItemType → String
  | .requirement => "REQ"
  | .task => "TASK"
  | .bug => "BUG"

/-! ## Values of a table -/

def validateProjectStatus : String → Except AppError ProjectStatus :=
  oneOf [("", .notStarted), ("not_started", .notStarted), ("in_progress", .inProgress),
    ("acceptance", .acceptance), ("completed", .completed), ("on_hold", .onHold),
    ("cancelled", .cancelled), ("archived", .archived)]
    "项目状态只能是 not_started / in_progress / acceptance / completed / on_hold / cancelled / archived"

def validateWorkItemType : String → Except AppError WorkItemType :=
  oneOf [("requirement", .requirement), ("task", .task), ("bug", .bug)]
    "工作项类型只能是 requirement / task / bug"

def validateWorkItemStatus : String → Except AppError WorkItemStatus :=
  oneOf [("open", .opened), ("in_progress", .inProgress),
    ("pending_confirmation", .pendingConfirmation), ("done", .done), ("verified", .verified),
    ("resolved", .resolved), ("closed", .closed), ("cancelled", .cancelled)]
    "工作项状态只能是 open / in_progress / pending_confirmation / done / verified / resolved / closed / cancelled"

def validatePriority : String → Except AppError Priority :=
  oneOf [("", .p2), ("P2", .p2), ("P0", .p0), ("P1", .p1), ("P3", .p3)]
    "优先级只能是 P0 / P1 / P2 / P3"

def validateMemberRole : String → Except AppError MemberRole :=
  oneOf [("", .member), ("member", .member), ("owner", .owner), ("maintainer", .maintainer),
    ("viewer", .viewer)] "项目成员角色只能是 owner / maintainer / member / viewer"

def validateWorkItemBatchAction : String → Except AppError BatchAction :=
  oneOf [("assignee", .assignee), ("status", .status), ("priority", .priority), ("cycle", .cycle)]
    "批量操作类型只能是 assignee / status / priority / cycle"

/-! ## Texts -/

def validateName (value fieldName : String) (maxChars : Nat) : Except AppError String := do
  rejectIf (trim value = "" ∨ charCount (trim value) > maxChars)
    (.badRequest (fieldName ++ "不能为空且不能超过 " ++ toString maxChars ++ " 个字符"))
  pure (trim value)

def validateOptionalText (value fieldName : String) (maxChars : Nat) : Except AppError String := do
  rejectIf (charCount (trim value) > maxChars)
    (.badRequest (fieldName ++ "不能超过 " ++ toString maxChars ++ " 个字符"))
  pure (trim value)

def asciiUpper (c : Char) : Char := if 'a' ≤ c && c ≤ 'z' then Char.ofNat (c.toNat - 32) else c

/-- `value.to_ascii_uppercase()`. -/
def toAsciiUppercase (s : String) : String := String.ofList (s.toList.map asciiUpper)

def isKeyChar (c : Char) : Bool :=
  ('A' ≤ c && c ≤ 'Z') || ('0' ≤ c && c ≤ '9') || c = '_' || c = '-'

def validateProjectKey (projectKey : String) : Except AppError String := do
  let value := toAsciiUppercase (trim projectKey)
  rejectIf (byteLen value < 2 ∨ byteLen value > 16) (.badRequest "项目编号长度必须为 2-16 个字符")
  rejectIf (¬ value.toList.all isKeyChar)
    (.badRequest "项目编号只能包含大写字母、数字、下划线和中划线")
  pure value

def validateWorkItemKeyRef (itemKey : String) : Except AppError String := do
  let value := toAsciiUppercase (trim itemKey)
  rejectIf (byteLen value < 5 ∨ byteLen value > 64) (.badRequest "工作项编号无效")
  rejectIf (¬ value.toList.all isKeyChar) (.badRequest "工作项编号无效")
  pure value

def isUsernameChar (c : Char) : Bool := c.isAlphanum || c = '_' || c = '-' || c = '.'

def validateUsernameRef (username : String) : Except AppError String := do
  let value := trim username
  rejectIf (byteLen value < 3 ∨ byteLen value > 64) (.badRequest "用户名长度必须为 3-64 个字符")
  rejectIf (¬ value.toList.all isUsernameChar)
    (.badRequest "用户名只能包含字母、数字、下划线、中划线和点")
  pure value

theorem validateUsernameRef_trim {username value : String}
    (h : validateUsernameRef username = .ok value) : value = trim username := by
  obtain ⟨_, _, h⟩ := bind_eq_ok.mp h
  obtain ⟨_, _, h⟩ := bind_eq_ok.mp h
  exact (Except.ok.inj h).symm

/-- `display_name.trim().chars().take(160)`. -/
def normalizeActorDisplayNameSnapshot (displayName : String) : String :=
  String.ofList ((trim displayName).toList.take 160)

/-! ## Dates -/

def isLeapYear (year : Nat) : Bool := (year % 4 = 0 && year % 100 ≠ 0) || year % 400 = 0

def daysInMonth (year month : Nat) : Nat :=
  if month ∈ [1, 3, 5, 7, 8, 10, 12] then 31
  else if month ∈ [4, 6, 9, 11] then 30
  else if month = 2 then if isLeapYear year then 29 else 28
  else 0

/-- The check of the three parts of a date. A part has at most four digits, so it fits in 32 bits. -/
def validateDateParts (fieldName : String) (year month day : List Char) : Except AppError Unit := do
  let malformed := AppError.badRequest (fieldName ++ "必须是 YYYY-MM-DD 格式")
  rejectIf (byteLen (String.ofList year) ≠ 4 ∨ byteLen (String.ofList month) ≠ 2 ∨
    byteLen (String.ofList day) ≠ 2) malformed
  rejectIf (¬ (year.all Char.isDigit ∧ month.all Char.isDigit ∧ day.all Char.isDigit)) malformed
  rejectIf (¬ (1 ≤ digitsValue month ∧ digitsValue month ≤ 12)) (.badRequest (fieldName ++ "月份无效"))
  rejectIf (digitsValue day < 1 ∨ digitsValue day > daysInMonth (digitsValue year) (digitsValue month))
    (.badRequest (fieldName ++ "日期无效"))

def validateOptionalDate (value fieldName : String) : Except AppError String :=
  if trim value = "" then .ok ""
  else
    match splitAll '-' (trim value).toList with
    | [year, month, day] => do
      validateDateParts fieldName year month day
      pure (trim value)
    | _ => .error (.badRequest (fieldName ++ "必须是 YYYY-MM-DD 格式"))

def validateDateRange (startDate dueDate message : String) : Except AppError Unit :=
  rejectIf (startDate ≠ "" ∧ dueDate ≠ "" ∧ dueDate < startDate) (.badRequest message)

/-! ## Statuses of a project -/

def projectStatusTransitions : ProjectStatus → List ProjectStatus
  | .notStarted => [.inProgress, .cancelled]
  | .inProgress => [.acceptance, .onHold, .cancelled]
  | .acceptance => [.inProgress, .completed, .onHold, .cancelled]
  | .onHold => [.inProgress, .cancelled]
  | .completed => [.inProgress, .archived]
  | .cancelled => [.notStarted, .archived]
  | .archived => [.completed, .cancelled, .inProgress]

def validateProjectStatusTransition (source target : ProjectStatus) : Except AppError Unit :=
  rejectIf (source ≠ target ∧ target ∉ projectStatusTransitions source)
    (.badRequest ("项目状态不能从 " ++ projectStatusLabel source ++ " 切换到 "
      ++ projectStatusLabel target))

def ensureProjectAcceptsWrites : ProjectStatus → Except AppError Unit
  | .notStarted => .ok ()
  | .inProgress => .ok ()
  | .acceptance => .ok ()
  | .onHold => .error (.badRequest "项目已暂停，不能执行写入操作")
  | .completed => .error (.badRequest "项目已完成，不能执行写入操作")
  | .cancelled => .error (.badRequest "项目已取消，不能执行写入操作")
  | .archived => .error (.badRequest "项目已归档，不能执行写入操作")

/-! ## Statuses of a work item -/

def workItemStatusSupported : WorkItemType → List WorkItemStatus
  | .bug => [.opened, .inProgress, .pendingConfirmation, .resolved, .verified, .closed]
  | .requirement => [.opened, .inProgress, .pendingConfirmation, .done, .closed]
  | .task => [.opened, .inProgress, .pendingConfirmation, .done, .closed]

def ensureWorkItemStatusSupportedForType (itemType : WorkItemType) (status : WorkItemStatus) :
    Except AppError Unit :=
  rejectIf (status ∉ workItemStatusSupported itemType)
    (.badRequest (workItemTypeLabel itemType ++ " 不支持状态 " ++ workItemStatusLabel status))

def allowedWorkItemStatusTransitions : WorkItemStatus → List WorkItemStatus
  | .opened => [.inProgress, .pendingConfirmation, .closed]
  | .inProgress => [.opened, .pendingConfirmation, .done, .resolved, .closed]
  | .pendingConfirmation => [.inProgress, .done, .resolved, .verified, .closed]
  | .done => [.inProgress, .verified, .closed]
  | .resolved => [.inProgress, .verified, .closed]
  | .verified => [.inProgress, .closed]
  | .closed => [.inProgress]
  | .cancelled => [.inProgress]

def ensureWorkItemStatusTransition (currentStatus nextStatus : WorkItemStatus) :
    Except AppError Unit :=
  rejectIf (¬ (currentStatus = nextStatus ∨
      nextStatus ∈ allowedWorkItemStatusTransitions currentStatus))
    (.badRequest ("工作项状态不能从 " ++ currentStatus.name ++ " 流转到 " ++ nextStatus.name))

/-- `status NOT IN ('done', 'closed', 'resolved', 'verified', 'cancelled')`. -/
def WorkItemStatus.isActive (status : WorkItemStatus) : Bool :=
  !([WorkItemStatus.done, .closed, .resolved, .verified, .cancelled].contains status)

/-! ## Selected items -/

/-- The loop of `normalize_batch_work_item_keys`. -/
def normalizeKeys (normalized : List String) : List String → Except AppError (List String)
  | [] => .ok normalized
  | itemKey :: rest => do
    let itemKey ← validateWorkItemKeyRef itemKey
    normalizeKeys (if normalized.contains itemKey then normalized else normalized ++ [itemKey]) rest

def normalizeBatchWorkItemKeys (itemKeys : List String) : Except AppError (List String) := do
  let normalized ← normalizeKeys [] itemKeys
  rejectIf (normalized = []) (.badRequest "请至少选择一个工作项")
  rejectIf (normalized.length > 100) (.badRequest "单次最多只能批量操作 100 个工作项")
  pure normalized

end Projects
end Yuance
