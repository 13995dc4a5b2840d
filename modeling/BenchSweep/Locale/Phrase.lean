import BenchSweep.Decimal.Shortest
import BenchSweep.Locale.Basic

/-! # Phrases

    Everything the program says, in each of its languages.  A phrase carries
    what varies in it, so no text is ever filled in twice. -/

namespace BenchSweep

/-- Something the program says. -/
inductive Phrase where
  | cliAbout
  | cliLang
  | runAbout
  | reportAbout
  | initAbout
  | argConfig
  | argOutdir
  | argTimeout
  | argSettle
  | argSeed
  | argSweeps
  | argLatex
  | argHtml
  | argJson
  | argNonInteractive
  | configInvalid (path : String)
  | loadingCatalog (path : String)
  | languageDetected (language : String)
  | wizardWelcome
  | wizardDescription
  | alreadyExists (path : String)
  | confirmationFailed
  | serializeFailed
  | writeFailed (path : String)
  | created (path : String)
  | usageHint
  | plan (count : Nat) (outdir : String) (seconds : Nat)
  | progress (iterations successful timeouts unfinished : Nat)
  | iteration (iteration : Nat)
  | performing (name : String)
  | done (time : Float)
  | notDone
  | timeout
  | interrupted
  | launchFailed
  | noExperiments
  | finished (sweeps : Nat)
  | outdirMissing (path : String)
  | summaryBanner
  | familyBanner (family metric : String)
  | phaseBanner
  | written (path : String)
  | headerMetric
  | headerExperiment
  | headerModel
  | headerRuns
  | headerMean
  | headerStdDev
  | headerTimeouts
  | pageTitle
  | pageHeader
  | countIterations
  | countSuccessful
  | countTimeouts
  | countNotDone

namespace Phrase

def english : Phrase → String
  | cliAbout =>
    "A resumable benchmark harness that times external analysis tools over many iterations."
  | cliLang => "Language for output messages (e.g. en, zh-CN). Overrides the catalog setting."
  | runAbout => "Run sweeps until interrupted, resuming from the artifacts already on disk."
  | reportAbout =>
    "Scan the output directory and report aggregated results without running anything."
  | initAbout => "Create a starter Sweep.toml catalog."
  | argConfig => "Path to the sweep catalog."
  | argOutdir => "Override the catalog's output directory."
  | argTimeout => "Override the per-trial timeout, in seconds."
  | argSettle => "Override the pause after each launched trial, in seconds."
  | argSeed => "Seed for the per-sweep shuffle, for reproducible order."
  | argSweeps => "Stop after this many sweeps instead of running until interrupted."
  | argLatex => "Write one LaTeX table per family into this directory."
  | argHtml => "Write an HTML report to this file."
  | argJson => "Write a JSON dump of the aggregated results to this file."
  | argNonInteractive => "Write the example catalog without launching the interactive wizard."
  | configInvalid path => "Invalid experiment catalog: " ++ path
  | loadingCatalog path => "Loading catalog from: " ++ path
  | languageDetected language => "Detected system language: " ++ language
  | wizardWelcome => "Welcome to the sweep catalog wizard!"
  | wizardDescription => "This will create a Sweep.toml describing the experiments to run."
  | alreadyExists path =>
    path ++ " already exists; remove it first or run the wizard interactively."
  | confirmationFailed => "Failed to read user input"
  | serializeFailed => "Failed to serialize the catalog"
  | writeFailed path => "Failed to write " ++ path
  | created path => "Created " ++ path
  | usageHint => "Edit it to list your models and tools, then start with `sweep-runner run`."
  | plan count outdir seconds =>
    toString count ++ " experiments, output in " ++ outdir ++ ", timeout " ++ toString seconds
      ++ "s"
  | progress iterations successful timeouts unfinished =>
    "Progress: " ++ toString iterations ++ " iterations, " ++ toString successful
      ++ " successful, " ++ toString timeouts ++ " timeouts, " ++ toString unfinished ++ " not done"
  | iteration n => "Running iteration " ++ toString n
  | performing name => "Performing " ++ name ++ "..."
  | done time => "done in " ++ Decimal.plainText time ++ "s"
  | notDone => "finished without a usable result"
  | timeout => "timeout!"
  | interrupted => "interrupted!"
  | launchFailed => "failed to launch!"
  | noExperiments => "The catalog defines no experiments, nothing to run."
  | finished sweeps => "Finished " ++ toString sweeps ++ " sweeps."
  | outdirMissing path => "Output directory not found: " ++ path
  | summaryBanner => "--- Experiment Summary ---"
  | familyBanner family metric => "Family " ++ family ++ " (" ++ metric ++ ")"
  | phaseBanner => "phase breakdown (share of total time)"
  | written path => "Written: " ++ path
  | headerMetric => "Metric"
  | headerExperiment => "Experiment"
  | headerModel => "Model"
  | headerRuns => "Runs"
  | headerMean => "Mean (s)"
  | headerStdDev => "Std dev"
  | headerTimeouts => "Timeouts"
  | pageTitle => "Sweep Report"
  | pageHeader => "Sweep Results"
  | countIterations => "Iterations"
  | countSuccessful => "Successful"
  | countTimeouts => "Timeouts"
  | countNotDone => "Not done"

def chinese : Phrase → String
  | cliAbout => "可恢复的基准测试工具，在多次迭代中对外部分析工具计时。"
  | cliLang => "输出消息的语言（例如 en, zh-CN），覆盖目录中的设置。"
  | runAbout => "持续运行扫描直到被中断，并从磁盘上已有的产物恢复。"
  | reportAbout => "扫描输出目录并报告汇总结果，不运行任何进程。"
  | initAbout => "创建一个初始的 Sweep.toml 目录文件。"
  | argConfig => "扫描目录文件的路径。"
  | argOutdir => "覆盖目录中的输出目录。"
  | argTimeout => "覆盖每次试验的超时时间（秒）。"
  | argSettle => "覆盖每次试验启动后的暂停时间（秒）。"
  | argSeed => "每次扫描打乱顺序所用的随机种子，用于复现执行顺序。"
  | argSweeps => "运行指定次数的扫描后停止，而不是一直运行到被中断。"
  | argLatex => "将每个家族的 LaTeX 表格写入此目录。"
  | argHtml => "将 HTML 报告写入此文件。"
  | argJson => "将汇总结果的 JSON 导出写入此文件。"
  | argNonInteractive => "直接写出示例目录，不启动交互式向导。"
  | configInvalid path => "无效的实验目录：" ++ path
  | loadingCatalog path => "正在加载目录：" ++ path
  | languageDetected language => "检测到系统语言：" ++ language
  | wizardWelcome => "欢迎使用扫描目录向导！"
  | wizardDescription => "向导将创建一个描述待运行实验的 Sweep.toml。"
  | alreadyExists path => path ++ " 已存在；请先删除它或以交互方式运行向导。"
  | confirmationFailed => "读取用户输入失败"
  | serializeFailed => "序列化目录失败"
  | writeFailed path => "写入 " ++ path ++ " 失败"
  | created path => "已创建 " ++ path
  | usageHint => "编辑该文件列出你的模型和工具，然后运行 `sweep-runner run` 开始。"
  | plan count outdir seconds =>
    "共 " ++ toString count ++ " 个实验，输出目录 " ++ outdir ++ "，超时 " ++ toString seconds ++ " 秒"
  | progress iterations successful timeouts unfinished =>
    "进度：" ++ toString iterations ++ " 次迭代，" ++ toString successful ++ " 次成功，"
      ++ toString timeouts ++ " 次超时，" ++ toString unfinished ++ " 个未完成"
  | iteration n => "正在运行第 " ++ toString n ++ " 次迭代"
  | performing name => "正在执行 " ++ name ++ "..."
  | done time => "完成，用时 " ++ Decimal.plainText time ++ " 秒"
  | notDone => "已结束但没有可用结果"
  | timeout => "超时！"
  | interrupted => "已中断！"
  | launchFailed => "启动失败！"
  | noExperiments => "目录中没有定义任何实验，无需运行。"
  | finished sweeps => "已完成 " ++ toString sweeps ++ " 次扫描。"
  | outdirMissing path => "未找到输出目录：" ++ path
  | summaryBanner => "--- 实验摘要 ---"
  | familyBanner family metric => "家族 " ++ family ++ "（" ++ metric ++ "）"
  | phaseBanner => "阶段分解（占总时间比例）"
  | written path => "已写入：" ++ path
  | headerMetric => "指标"
  | headerExperiment => "实验"
  | headerModel => "模型"
  | headerRuns => "次数"
  | headerMean => "均值 (秒)"
  | headerStdDev => "标准差"
  | headerTimeouts => "超时"
  | pageTitle => "扫描报告"
  | pageHeader => "扫描结果"
  | countIterations => "迭代"
  | countSuccessful => "成功"
  | countTimeouts => "超时"
  | countNotDone => "未完成"

end Phrase

/-- A phrase in a language. -/
def Locale.say (l : Locale) (p : Phrase) : String :=
  match l with
  | .en => p.english
  | .zhCN => p.chinese

end BenchSweep
