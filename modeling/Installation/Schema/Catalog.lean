import Installation.Schema.Basic

/-!
# The schemas of an installation

The spec of an installation and its parts: an ingress, a file store and a database.  File
store and database are each run elsewhere or managed along with the installation; the spec
always has both of them.
-/

namespace Installation

namespace Schema

/-- A field that travels under the name of its attribute. -/
def field (name : String) (shape : Shape) : Slot × Shape := (⟨name, name⟩, shape)

/-- A field that travels under a name of its own. -/
def renamed (wire attr : String) (shape : Shape) : Slot × Shape := (⟨wire, attr⟩, shape)

/-- A file store that is reached through an address. -/
def externalFileStore : Schema where
  kind := .externalFileStore
  fields := [field "url" .text, field "bucket" .text, field "secret" .text]

/-- A volume that serves as a file store. -/
def externalVolume : Schema where
  kind := .externalVolume
  fields := [renamed "volumeClaimName" "volume_claim_name" .text, field "bucket" .text]

/-- A file store that is managed along with the installation. -/
def managedFileStore : Schema where
  kind := .managedFileStore
  fields :=
    [field "replicas" .integer, renamed "storageSize" "storage_size" .text,
     field "resources" .rawMap]

/-- The file store of an installation. -/
def fileStore : Schema where
  kind := .fileStore
  fields :=
    [field "external" (externalFileStore.toShape false),
     renamed "externalVolume" "external_volume" (externalVolume.toShape false),
     renamed "operatorManaged" "operator_managed" (managedFileStore.toShape false)]

/-- A database that is run elsewhere. -/
def externalDatabase : Schema where
  kind := .externalDatabase
  fields := [field "secret" .text]

/-- A database that is managed along with the installation. -/
def managedDatabase : Schema where
  kind := .managedDatabase
  fields :=
    [field "type" .text, field "version" .text, renamed "storageSize" "storage_size" .text,
     field "replicas" .integer, field "resources" .rawMap]

/-- The database of an installation. -/
def database : Schema where
  kind := .database
  fields :=
    [field "external" (externalDatabase.toShape false),
     renamed "operatorManaged" "operator_managed" (managedDatabase.toShape false)]

/-- How an installation is reached. -/
def ingress : Schema where
  kind := .ingress
  fields :=
    [field "enabled" .boolean, field "host" .text, field "annotations" .textMap,
     renamed "tlsSecret" "tls_secret" .text]

/-- The spec of an installation. -/
def spec : Schema where
  kind := .spec
  fields :=
    [field "image" .text,
     field "version" .text,
     field "replicas" .integer,
     renamed "imagePullPolicy" "image_pull_policy" .text,
     field "ingress" (ingress.toShape false),
     renamed "ingressName" "ingress_name" .text,
     renamed "ingressAnnotations" "ingress_annotations" .textMap,
     renamed "useIngressTLS" "use_ingress_tls" .boolean,
     renamed "resourceLabels" "resource_labels" .textMap,
     renamed "fileStore" "file_store" (fileStore.toShape true),
     field "database" (database.toShape true)]

/-- All schemas. -/
def all : List Schema :=
  [externalFileStore, externalVolume, managedFileStore, fileStore, externalDatabase,
   managedDatabase, database, ingress, spec]

/-- The schema of a kind of records. -/
def ofKind? (kind : Kind) : Option Schema := all.find? fun schema => schema.kind == kind

end Schema

end Installation
