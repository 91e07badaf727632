/-!
# Kinds of records

A record is of a `Kind`, which fixes its name in messages, the attributes that it
declares, which read as null until they are set, and the operations that it offers under
a name of their own.  An attribute that is set under the name of an operation hides the
operation.  A kind also says of its records what they are for and where it belongs.
-/

namespace Installation

/-- The kinds of records of an installation. -/
inductive Kind where
  | base
  | externalFileStore
  | externalVolume
  | managedFileStore
  | fileStore
  | externalDatabase
  | managedDatabase
  | database
  | ingress
  | spec
deriving DecidableEq, Repr

namespace Kind

/-- All kinds. -/
def all : List Kind :=
  [.base, .externalFileStore, .externalVolume, .managedFileStore, .fileStore,
   .externalDatabase, .managedDatabase, .database, .ingress, .spec]

/-- The name of a kind in messages and in the text of its records. -/
def name : Kind → String
  | .base => "BaseModel"
  | .externalFileStore => "ExternalFileStore"
  | .externalVolume => "ExternalVolumeFileStore"
  | .managedFileStore => "OperatorManagedMinio"
  | .fileStore => "FileStore"
  | .externalDatabase => "ExternalDatabase"
  | .managedDatabase => "OperatorManagedDatabase"
  | .database => "Database"
  | .ingress => "Ingress"
  | .spec => "MattermostSpec"

/-- The kind with a given name. -/
def ofName? (s : String) : Option Kind := all.find? fun kind => kind.name == s

/-- The attributes that a kind declares. -/
def declared : Kind → List String
  | .base => []
  | .externalFileStore => ["url", "bucket", "secret"]
  | .externalVolume => ["volume_claim_name", "bucket"]
  | .managedFileStore => ["replicas", "storage_size", "resources"]
  | .fileStore => ["external", "external_volume", "operator_managed"]
  | .externalDatabase => ["secret"]
  | .managedDatabase => ["type", "version", "storage_size", "replicas", "resources"]
  | .database => ["external", "operator_managed"]
  | .ingress => ["enabled", "host", "annotations", "tls_secret"]
  | .spec =>
    ["image", "version", "replicas", "image_pull_policy", "ingress", "ingress_name",
     "ingress_annotations", "use_ingress_tls", "resource_labels", "file_store", "database"]

/-- The operations that a kind offers by name. -/
def operations : Kind → List String
  | .managedFileStore => ["set_defaults"]
  | .fileStore => ["is_external", "is_external_volume", "set_defaults"]
  | .managedDatabase => ["set_defaults"]
  | .database => ["is_external", "set_defaults"]
  | _ => []

/-- What the records of a kind are for, if anything is said about that. -/
def description? : Kind → Option String
  | .base =>
    some ("BaseModel that all models should inherit from.\n\n" ++
      "    Note:\n" ++
      "        Attributes declared on the class with a value act as defaults for\n" ++
      "        fields that were not passed in, so partially built models can be\n" ++
      "        read without `hasattr` checks.\n" ++
      "    Args:\n" ++
      "        **kwargs: All passed parameters as converted to instance attributes.\n    ")
  | .externalFileStore => some "S3 compatible file store managed outside of the operator."
  | .externalVolume => some "Existing persistent volume claim used as file store."
  | .managedFileStore => some "Minio instance created and managed by the operator."
  | .fileStore => some "Mattermost file store. At most one variant is expected to be set."
  | .externalDatabase => none
  | .managedDatabase => some "Database cluster created and managed by the operator."
  | .database => none
  | .ingress => some "Mattermost ingress configuration"
  | .spec => some "Mattermost CRD spec"

/-- Where a kind belongs. -/
def home : Kind → String
  | .base => "mattermost_operator.types.base"
  | .externalFileStore | .externalVolume | .managedFileStore | .fileStore =>
    "mattermost_operator.types.models.filestore"
  | .externalDatabase | .managedDatabase | .database =>
    "mattermost_operator.types.models.database"
  | .ingress | .spec => "mattermost_operator.types.models.mattermost_spec"

end Kind

end Installation
