import Installation.Labels.Basic

/-!
# Containers

`findContainer?` finds the first container of some name.  `Deployment.findContainer?` looks
for it in the pods that a deployment describes; a description may end at any level, and
then there is none.
-/

namespace Installation

/-- A container of a pod. -/
structure Container where
  name : Value
  image : Value

/-- What a pod consists of. -/
structure PodSpec where
  containers : List Container

/-- The form of the pods that are made. -/
structure PodTemplate where
  spec? : Option PodSpec

/-- What a deployment asks for. -/
structure DeploymentSpec where
  template? : Option PodTemplate

/-- A deployment. -/
structure Deployment where
  spec? : Option DeploymentSpec

/-- The name of the container that runs the application. -/
def appContainerName : Value := .text Labels.appName

/-- The first container of the given name, with its position. -/
def findContainer? (name : Value) (containers : List Container) :
    Option (Container × Nat) :=
  containers.zipIdx.find? fun c => c.1.name == name

/-- The containers of the pods that a deployment describes. -/
def Deployment.containers (deployment : Deployment) : List Container :=
  match deployment.spec? with
  | some ⟨some ⟨some pod⟩⟩ => pod.containers
  | _ => []

/-- The first container of the given name in the pods that a deployment describes, with its
position. -/
def Deployment.findContainer? (name : Value) (deployment : Deployment) :
    Option (Container × Nat) :=
  Installation.findContainer? name deployment.containers

end Installation
