import KubeArmor.Machine
import KubeArmor.Go.Basic
import KubeArmor.Go.Utf8
import KubeArmor.Go.Json
import KubeArmor.Types.Log
import KubeArmor.Types.LogJson
import KubeArmor.Monitor.Context
import KubeArmor.Monitor.Logs
import KubeArmor.Monitor.ContainersLock
import KubeArmor.Feeder.LogService
import KubeArmor.Feeder.PushLog
import KubeArmor.Feeder.Service
import KubeArmor.Feeder.Pipeline
import KubeArmor.Feeder.Messages
import KubeArmor.Laws.Machine
import KubeArmor.Laws.Go.Utf8
import KubeArmor.Laws.Go.Json
import KubeArmor.Laws.Types.LogJson
import KubeArmor.Laws.Monitor.Logs
import KubeArmor.Laws.Monitor.ContainersLock
import KubeArmor.Laws.Feeder.LogService
import KubeArmor.Laws.Feeder.PushLog
import KubeArmor.Laws.Feeder.Service
import KubeArmor.Laws.Feeder.Progress
import KubeArmor.Laws.Feeder.Pipeline
import KubeArmor.Laws.Feeder.Messages
