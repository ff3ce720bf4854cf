import OpenCodeRouter.Registry.Slugify
import OpenCodeRouter.Registry.Theorems.Slugify
import OpenCodeRouter.Registry.Basic
import OpenCodeRouter.Registry.Theorems.Prune
import OpenCodeRouter.Registry.Theorems.Coherence
import OpenCodeRouter.Registry.Theorems.Operations
import OpenCodeRouter.Registry.Theorems.CoherentRuns
import OpenCodeRouter.Registry.Legacy
import OpenCodeRouter.Config
import OpenCodeRouter.Proxy.Url
import OpenCodeRouter.Proxy.Router
import OpenCodeRouter.Proxy.Theorems.Routing
import OpenCodeRouter.Proxy.Theorems.Forwarding
import OpenCodeRouter.Proxy.Api
import OpenCodeRouter.Proxy.Theorems.ControlApi
import OpenCodeRouter.Discovery.Advertiser
import OpenCodeRouter.Discovery.Theorems.Handles
import OpenCodeRouter.Discovery.Theorems.Sync
import OpenCodeRouter.Discovery.Theorems.Reconcile
import OpenCodeRouter.Scanner.Pass
import OpenCodeRouter.Scanner.Theorems.Completion
import OpenCodeRouter.Scanner.Theorems.Cancellation
import OpenCodeRouter.Launcher.Launch
import OpenCodeRouter.Launcher.Theorems.Ports
import OpenCodeRouter.Theorems.Advertised
import OpenCodeRouter.Theorems.NameResolution
import OpenCodeRouter.Main
import OpenCodeRouter.Theorems.Main
