import N8nSystems.Lib.RowSecurity

/-! The P05 tables with their constraints, and the row-level security policies of
role `p05_backend` (`db/migrations`). -/

namespace N8nSystems.Tenants

open Lib.Sql

inductive Table where
  | tenants | tenantApiKeys
  | tenantConfigs | tenantSecrets | leads | submissions | emailMessages | followups
  | suppressionList | activities | llmCalls
  deriving DecidableEq, Repr

inductive Column where
  | id | tenantId | slug | name | status | createdAt
  | keyHash | keyPrefix | revokedAt
  | version | config | createdBy
  | ciphertext | nonce | keyVersion
  | correlationId | emailNormalized | companyName | companyDomain | isFreeMail | country | language
  | consentMarketing | consentTs | score | scoreBreakdown | route | llmStatus | crmId
  | crmSyncStatus | owner | updatedAt
  | leadId | submissionId | rawPayload | ipHash | receivedAt
  | kind | subject | draftText | finalText | reviewId | smtpMessageId | sentAt
  | step | dueAt | cancelReason
  | reason
  | type | data
  | purpose | promptVersion | model | output | valid | error | tokensIn | tokensOut | latencyMs
  deriving DecidableEq, Repr

/-- `column type`. -/
def nullable (column : Column) (type : ColumnType) : ColumnSpec Column := ⟨column, type, false, .null⟩

/-- `column type NOT NULL`. -/
def required (column : Column) (type : ColumnType) : ColumnSpec Column := ⟨column, type, true, .null⟩

/-- `id uuid PRIMARY KEY DEFAULT gen_random_uuid()`. -/
def randomId : ColumnSpec Column := ⟨.id, .uuid, true, .randomUuid⟩

/-- `column timestamptz NOT NULL DEFAULT now()`. -/
def stamped (column : Column) : ColumnSpec Column := ⟨column, .timestamptz, true, .now⟩

def columns : Table → List (ColumnSpec Column)
  | .tenants => [randomId, required .slug .text, required .name .text, required .status .text,
      stamped .createdAt]
  | .tenantApiKeys => [randomId, required .tenantId .uuid, required .keyHash .text,
      required .keyPrefix .text, stamped .createdAt, nullable .revokedAt .timestamptz]
  | .tenantConfigs => [required .tenantId .uuid, required .version .integer,
      required .config .jsonb, stamped .createdAt, nullable .createdBy .text]
  | .tenantSecrets => [required .tenantId .uuid, required .name .text, required .ciphertext .bytea,
      required .nonce .bytea, required .keyVersion .integer, stamped .createdAt]
  | .leads => [randomId, required .tenantId .uuid, nullable .correlationId .text,
      nullable .emailNormalized .citext, nullable .name .text, nullable .companyName .text,
      nullable .companyDomain .text, nullable .isFreeMail .boolean, nullable .country .text,
      nullable .language .text, nullable .consentMarketing .boolean,
      nullable .consentTs .timestamptz, nullable .status .text, nullable .score .integer,
      nullable .scoreBreakdown .jsonb, nullable .route .text, nullable .llmStatus .text,
      nullable .crmId .text, nullable .crmSyncStatus .text, nullable .owner .text,
      stamped .createdAt, stamped .updatedAt]
  | .submissions => [randomId, required .tenantId .uuid, required .leadId .uuid,
      nullable .submissionId .text, nullable .rawPayload .jsonb, nullable .ipHash .text,
      stamped .receivedAt, stamped .createdAt]
  | .emailMessages => [randomId, required .tenantId .uuid, required .leadId .uuid,
      nullable .kind .text, nullable .language .text, nullable .subject .text,
      nullable .draftText .text, nullable .finalText .text, nullable .status .text,
      nullable .reviewId .text, nullable .smtpMessageId .text, nullable .sentAt .timestamptz,
      stamped .createdAt]
  | .followups => [randomId, required .tenantId .uuid, required .leadId .uuid,
      nullable .step .integer, nullable .dueAt .timestamptz, nullable .status .text,
      nullable .cancelReason .text, stamped .createdAt]
  | .suppressionList => [required .tenantId .uuid, required .emailNormalized .citext,
      nullable .reason .text, stamped .createdAt]
  | .activities => [randomId, required .tenantId .uuid, nullable .leadId .uuid,
      nullable .type .text, nullable .data .jsonb, stamped .createdAt]
  | .llmCalls => [randomId, required .tenantId .uuid, nullable .leadId .uuid,
      nullable .purpose .text, nullable .promptVersion .text, nullable .model .text,
      nullable .output .jsonb, nullable .valid .boolean, nullable .error .text,
      nullable .tokensIn .integer, nullable .tokensOut .integer, nullable .latencyMs .integer,
      stamped .createdAt]

/-- The primary keys and unique constraints. -/
def keys : Table → List (List Column)
  | .tenants => [[.id], [.slug]]
  | .tenantApiKeys => [[.id]]
  | .tenantConfigs => [[.tenantId, .version]]
  | .tenantSecrets => [[.tenantId, .name]]
  | .leads => [[.id], [.tenantId, .id], [.tenantId, .emailNormalized]]
  | .submissions => [[.id], [.tenantId, .submissionId]]
  | .emailMessages => [[.id]]
  | .followups => [[.id]]
  | .suppressionList => [[.tenantId, .emailNormalized]]
  | .activities => [[.id]]
  | .llmCalls => [[.id]]

/-- `column IN (...)`; a null column does not violate the check. -/
def among (row : Row Column) (column : Column) (texts : List String) : Bool :=
  row column == .null || texts.any fun text => row column == .text text

/-- `column >= 1`. -/
def positive (row : Row Column) (column : Column) : Bool :=
  match row column with
  | .integer value => 1 ≤ value
  | _ => true

/-- `slug ~ '^[a-z0-9]+(-[a-z0-9]+)*$'`: words of lower-case letters and digits
between single hyphens. -/
def slugWords (text : String) : Bool :=
  (text.toList.splitOn '-').all fun word => !word.isEmpty && word.all fun c => c.isLower || c.isDigit

def slugOk (row : Row Column) : Bool :=
  match row .slug with
  | .text text => slugWords text && 1 ≤ text.length && text.length ≤ 63
  | _ => true

def prefixOk (row : Row Column) : Bool :=
  match row .keyPrefix with
  | .text text => text.length == 8
  | _ => true

def checks : Table → Row Column → Bool
  | .tenants, row => among row .status ["active", "disabled", "deleted"] && slugOk row
  | .tenantApiKeys, row => prefixOk row
  | .tenantConfigs, row => positive row .version
  | .tenantSecrets, row =>
    among row .name ["crm_token", "slack_webhook", "smtp_password"] && positive row .keyVersion
  | .leads, row => among row .language ["fi", "sv", "en", "other"] &&
      among row .status ["new", "qualified", "nurture", "archived", "contacted", "replied",
        "meeting_booked", "unsubscribed", "bounced", "invalid", "spam"] &&
      among row .crmSyncStatus ["pending", "synced", "failed"]
  | .submissions, _ => true
  | .emailMessages, row => among row .kind ["first_contact", "followup", "nurture"] &&
      among row .status ["draft", "pending_approval", "approved", "rejected", "sending", "sent",
        "bounced", "failed"]
  | .followups, row => among row .status ["scheduled", "sent", "cancelled"]
  | .suppressionList, row => among row .reason ["unsubscribed", "bounced", "manual"]
  | .activities, _ => true
  | .llmCalls, row => among row .purpose ["classify", "draft_email"]

/-- `tenant_id uuid NOT NULL REFERENCES p05.tenants (id)`. -/
def ofTenant : ForeignKey Table Column := ⟨[(.tenantId, .id)], .tenants⟩

/-- `FOREIGN KEY (tenant_id, lead_id) REFERENCES p05.leads (tenant_id, id)`. -/
def ofLead : ForeignKey Table Column := ⟨[(.tenantId, .tenantId), (.leadId, .id)], .leads⟩

def foreignKeys : Table → List (ForeignKey Table Column)
  | .tenants => []
  | .tenantApiKeys => [ofTenant]
  | .tenantConfigs => [ofTenant]
  | .tenantSecrets => [ofTenant]
  | .leads => [ofTenant]
  | .submissions => [ofTenant, ofLead]
  | .emailMessages => [ofTenant, ofLead]
  | .followups => [ofTenant, ofLead]
  | .suppressionList => [ofTenant]
  | .activities => [ofTenant, ofLead]
  | .llmCalls => [ofTenant, ofLead]

/-- The tables with row-level security enabled and forced, each with the policy
`tenant_id = current_setting('app.tenant_id')::uuid` for all commands. -/
def secured : Table → Bool
  | .tenants => false
  | .tenantApiKeys => false
  | _ => true

/-- The P05 database; `lower` is the case folding of `citext`. -/
def schema (lower : String → String) : Schema Table Column where
  tables := [.tenants, .tenantApiKeys, .tenantConfigs, .tenantSecrets, .leads, .submissions,
    .emailMessages, .followups, .suppressionList, .activities, .llmCalls]
  columns := columns
  keys := keys
  checks := checks
  foreignKeys := foreignKeys
  secured := secured
  owner := .tenantId
  lower := lower

/-- Leads are the only secured table that others refer to, within one tenant. -/
theorem foreignKeys_owned (table : Table) : ∀ key ∈ foreignKeys table,
    secured key.target = true → (Column.tenantId, Column.tenantId) ∈ key.columns := by
  cases table <;> decide

theorem ownedReferences (lower : String → String) : (schema lower).OwnedReferences :=
  foreignKeys_owned

end N8nSystems.Tenants
