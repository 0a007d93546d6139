import ConnectorControl.Objects.Metadata
import ConnectorControl.Objects.Shape

/-!
# Containers of a pod

A container is read with all the members it may have, and written as it is read.  What the operator
looks at or sets is typed; the other records in it are known by their shapes.
-/

namespace ConnectorControl

structure ContainerPort where
  containerPort : Int32
  name : Option String := none
  protocol : Option String := none
  hostIP : Option String := none
  hostPort : Option Int32 := none
deriving DecidableEq

structure VolumeMount where
  name : String
  mountPath : String
  readOnly : Option Bool := none
  subPath : Option String := none
  mountPropagation : Option String := none
  recursiveReadOnly : Option String := none
  subPathExpr : Option String := none
deriving DecidableEq

namespace Shape

/-! ## environment -/

def configMapKey : Shape := .record "ConfigMapKeySelector" [
  required "key" .text, required "name" .text, optional "optional" .flag]

def objectField : Shape := .record "ObjectFieldSelector" [
  optional "apiVersion" .text, required "fieldPath" .text]

def resourceField : Shape := .record "ResourceFieldSelector" [
  optional "containerName" .text, optional "divisor" .text, required "resource" .text]

def secretKey : Shape := .record "SecretKeySelector" [
  required "key" .text, required "name" .text, optional "optional" .flag]

def envSource : Shape := .record "EnvVarSource" [
  optional "configMapKeyRef" configMapKey, optional "fieldRef" objectField,
  optional "resourceFieldRef" resourceField, optional "secretKeyRef" secretKey]

def envVar : Shape := .record "EnvVar" [
  required "name" .text, optional "value" .text, optional "valueFrom" envSource]

def configMapEnv : Shape := .record "ConfigMapEnvSource" [
  required "name" .text, optional "optional" .flag]

def secretEnv : Shape := .record "SecretEnvSource" [
  required "name" .text, optional "optional" .flag]

def envFrom : Shape := .record "EnvFromSource" [
  optional "configMapRef" configMapEnv, optional "prefix" .text,
  optional "secretRef" secretEnv]

/-! ## actions and probes -/

def execAction : Shape := .record "ExecAction" [optional "command" (.list .text)]

def httpHeader : Shape := .record "HTTPHeader" [required "name" .text, required "value" .text]

def httpGetAction : Shape := .record "HTTPGetAction" [
  optional "host" .text, optional "httpHeaders" (.list httpHeader), optional "path" .text,
  required "port" .intOrText, optional "scheme" .text]

def sleepAction : Shape := .record "SleepAction" [required "seconds" .int64]

def tcpSocketAction : Shape := .record "TCPSocketAction" [
  optional "host" .text, required "port" .intOrText]

def grpcAction : Shape := .record "GRPCAction" [
  required "port" .int32, optional "service" .text]

def lifecycleHandler : Shape := .record "LifecycleHandler" [
  optional "exec" execAction, optional "httpGet" httpGetAction, optional "sleep" sleepAction,
  optional "tcpSocket" tcpSocketAction]

def lifecycle : Shape := .record "Lifecycle" [
  optional "postStart" lifecycleHandler, optional "preStop" lifecycleHandler]

def probe : Shape := .record "Probe" [
  optional "exec" execAction, optional "failureThreshold" .int32, optional "grpc" grpcAction,
  optional "httpGet" httpGetAction, optional "initialDelaySeconds" .int32,
  optional "periodSeconds" .int32, optional "successThreshold" .int32,
  optional "tcpSocket" tcpSocketAction, optional "terminationGracePeriodSeconds" .int64,
  optional "timeoutSeconds" .int32]

/-! ## resources and security -/

def resizePolicy : Shape := .record "ContainerResizePolicy" [
  required "resourceName" .text, required "restartPolicy" .text]

def resourceClaim : Shape := .record "ResourceClaim" [required "name" .text]

def resources : Shape := .record "ResourceRequirements" [
  optional "claims" (.list resourceClaim), optional "limits" .texts, optional "requests" .texts]

def appArmorProfile : Shape := .record "AppArmorProfile" [
  optional "localhostProfile" .text, required "type" .text]

def capabilities : Shape := .record "Capabilities" [
  optional "add" (.list .text), optional "drop" (.list .text)]

def seLinuxOptions : Shape := .record "SELinuxOptions" [
  optional "level" .text, optional "role" .text, optional "type" .text, optional "user" .text]

def seccompProfile : Shape := .record "SeccompProfile" [
  optional "localhostProfile" .text, required "type" .text]

def windowsOptions : Shape := .record "WindowsSecurityContextOptions" [
  optional "gmsaCredentialSpec" .text, optional "gmsaCredentialSpecName" .text,
  optional "hostProcess" .flag, optional "runAsUserName" .text]

def securityContext : Shape := .record "SecurityContext" [
  optional "allowPrivilegeEscalation" .flag, optional "appArmorProfile" appArmorProfile,
  optional "capabilities" capabilities, optional "privileged" .flag, optional "procMount" .text,
  optional "readOnlyRootFilesystem" .flag, optional "runAsGroup" .int64,
  optional "runAsNonRoot" .flag, optional "runAsUser" .int64,
  optional "seLinuxOptions" seLinuxOptions, optional "seccompProfile" seccompProfile,
  optional "windowsOptions" windowsOptions]

def volumeDevice : Shape := .record "VolumeDevice" [
  required "devicePath" .text, required "name" .text]

end Shape

structure Container where
  name : String
  image : Option String := none
  imagePullPolicy : Option String := none
  command : Option (List String) := none
  args : Option (List String) := none
  workingDir : Option String := none
  env : Option (List Shape.envVar.Value) := none
  envFrom : Option (List Shape.envFrom.Value) := none
  ports : Option (List ContainerPort) := none
  volumeMounts : Option (List VolumeMount) := none
  volumeDevices : Option (List Shape.volumeDevice.Value) := none
  resources : Option Shape.resources.Value := none
  resizePolicy : Option (List Shape.resizePolicy.Value) := none
  restartPolicy : Option String := none
  lifecycle : Option Shape.lifecycle.Value := none
  livenessProbe : Option Shape.probe.Value := none
  readinessProbe : Option Shape.probe.Value := none
  startupProbe : Option Shape.probe.Value := none
  securityContext : Option Shape.securityContext.Value := none
  stdin : Option Bool := none
  stdinOnce : Option Bool := none
  tty : Option Bool := none
  terminationMessagePath : Option String := none
  terminationMessagePolicy : Option String := none
deriving DecidableEq

open Decode

def ContainerPort.decode : Decoder ContainerPort := fun v => do
  let ms ← membersOf "ContainerPort" v
  return {
    containerPort := (← optional ms "containerPort" int32).getD 0
    hostIP := ← optional ms "hostIP" string
    hostPort := ← optional ms "hostPort" int32
    name := ← optional ms "name" string
    protocol := ← optional ms "protocol" string }

def ContainerPort.toJson (p : ContainerPort) : Json :=
  .objectOfSet [
    ("containerPort", some (.int p.containerPort.toInt)),
    ("hostIP", p.hostIP.map .str),
    ("hostPort", p.hostPort.map fun n => .int n.toInt),
    ("name", p.name.map .str),
    ("protocol", p.protocol.map .str)]

def VolumeMount.decode : Decoder VolumeMount := fun v => do
  let ms ← membersOf "VolumeMount" v
  return {
    mountPath := ← textOrEmpty ms "mountPath"
    mountPropagation := ← optional ms "mountPropagation" string
    name := ← textOrEmpty ms "name"
    readOnly := ← optional ms "readOnly" bool
    recursiveReadOnly := ← optional ms "recursiveReadOnly" string
    subPath := ← optional ms "subPath" string
    subPathExpr := ← optional ms "subPathExpr" string }

def VolumeMount.toJson (m : VolumeMount) : Json :=
  .objectOfSet [
    ("mountPath", some (.str m.mountPath)),
    ("mountPropagation", m.mountPropagation.map .str),
    ("name", some (.str m.name)),
    ("readOnly", m.readOnly.map .bool),
    ("recursiveReadOnly", m.recursiveReadOnly.map .str),
    ("subPath", m.subPath.map .str),
    ("subPathExpr", m.subPathExpr.map .str)]

namespace Container

def decode : Decoder Container := fun v => do
  let ms ← membersOf "Container" v
  return {
    args := ← optional ms "args" (list string)
    command := ← optional ms "command" (list string)
    env := ← optional ms "env" (list Shape.envVar.decode)
    envFrom := ← optional ms "envFrom" (list Shape.envFrom.decode)
    image := ← optional ms "image" string
    imagePullPolicy := ← optional ms "imagePullPolicy" string
    lifecycle := ← optional ms "lifecycle" Shape.lifecycle.decode
    livenessProbe := ← optional ms "livenessProbe" Shape.probe.decode
    name := ← textOrEmpty ms "name"
    ports := ← optional ms "ports" (list ContainerPort.decode)
    readinessProbe := ← optional ms "readinessProbe" Shape.probe.decode
    resizePolicy := ← optional ms "resizePolicy" (list Shape.resizePolicy.decode)
    resources := ← optional ms "resources" Shape.resources.decode
    restartPolicy := ← optional ms "restartPolicy" string
    securityContext := ← optional ms "securityContext" Shape.securityContext.decode
    startupProbe := ← optional ms "startupProbe" Shape.probe.decode
    stdin := ← optional ms "stdin" bool
    stdinOnce := ← optional ms "stdinOnce" bool
    terminationMessagePath := ← optional ms "terminationMessagePath" string
    terminationMessagePolicy := ← optional ms "terminationMessagePolicy" string
    tty := ← optional ms "tty" bool
    volumeDevices := ← optional ms "volumeDevices" (list Shape.volumeDevice.decode)
    volumeMounts := ← optional ms "volumeMounts" (list VolumeMount.decode)
    workingDir := ← optional ms "workingDir" string }

def toJson (c : Container) : Json :=
  .objectOfSet [
    ("args", c.args.map .ofStrings),
    ("command", c.command.map .ofStrings),
    ("env", c.env.map fun es => .arr (es.map Shape.envVar.toJson)),
    ("envFrom", c.envFrom.map fun es => .arr (es.map Shape.envFrom.toJson)),
    ("image", c.image.map .str),
    ("imagePullPolicy", c.imagePullPolicy.map .str),
    ("lifecycle", c.lifecycle.map Shape.lifecycle.toJson),
    ("livenessProbe", c.livenessProbe.map Shape.probe.toJson),
    ("name", some (.str c.name)),
    ("ports", c.ports.map fun ps => .arr (ps.map ContainerPort.toJson)),
    ("readinessProbe", c.readinessProbe.map Shape.probe.toJson),
    ("resizePolicy", c.resizePolicy.map fun ps => .arr (ps.map Shape.resizePolicy.toJson)),
    ("resources", c.resources.map Shape.resources.toJson),
    ("restartPolicy", c.restartPolicy.map .str),
    ("securityContext", c.securityContext.map Shape.securityContext.toJson),
    ("startupProbe", c.startupProbe.map Shape.probe.toJson),
    ("stdin", c.stdin.map .bool),
    ("stdinOnce", c.stdinOnce.map .bool),
    ("terminationMessagePath", c.terminationMessagePath.map .str),
    ("terminationMessagePolicy", c.terminationMessagePolicy.map .str),
    ("tty", c.tty.map .bool),
    ("volumeDevices", c.volumeDevices.map fun ds => .arr (ds.map Shape.volumeDevice.toJson)),
    ("volumeMounts", c.volumeMounts.map fun ms => .arr (ms.map VolumeMount.toJson)),
    ("workingDir", c.workingDir.map .str)]

end Container
end ConnectorControl
